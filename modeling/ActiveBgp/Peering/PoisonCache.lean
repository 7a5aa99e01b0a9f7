import ActiveBgp.Peering.Search

namespace ActiveBgp.Peering

open ActiveBgp.Python
open ActiveBgp.Frrp (Asn)

def PoisonCache.addPoisonSet (floats : Floats) (cache : PoisonCache) (poisons : Finset Asn) (path : List Asn)
    (rtts : List (Asn × ℚ)) : PoisonCache :=
  cache.set (getPoisonId poisons) (path, getKvString floats rtts)

theorem poisonCache_record (experiment : Experiment) (src : Asn) (measurementId : Int) (poisons : Finset Asn)
    (path : Frrp.TracedPath) (state : RunState) :
    (state.record experiment src measurementId poisons path).poisonCache =
      state.poisonCache.addPoisonSet experiment.floats poisons path.asns.items path.rtts.entries := rfl

/-- The elements of the set, in an order in which it may iterate. -/
def Iterates (set : Finset Asn) (order : List Asn) : Prop := order.Nodup ∧ order.toFinset = set

/-- `separator.join([str(x) for x in sorted(poisons)])` -/
def joinSorted (separator : Char) (iterated : List Asn) : Text :=
  [separator].intercalate ((iterated.insertionSort (· ≤ ·)).map Text.ofInt)

section Ids

variable {set : Finset Asn} {order : List Asn}

theorem frrp_getPoisonId_iterated (iterates : Iterates set order) : Frrp.getPoisonId set = joinSorted '-' order := by
  obtain ⟨distinct, rfl⟩ := iterates
  rw [Frrp.getPoisonId, sorted_toFinset distinct]
  rfl

theorem getPoisonId_iterated (iterates : Iterates set order) : getPoisonId set = joinSorted ',' order := by
  obtain ⟨distinct, rfl⟩ := iterates
  rw [getPoisonId, sorted_toFinset distinct]
  rfl

end Ids

section Caches

/-- A set that is added with its path and times. -/
structure Addition (ρ : Type) where
  poisons : Finset Asn
  path : List Asn
  rtts : List ρ

/-- The cache of `frrp.py` after a sequence of calls of `add_poison_set`. -/
def frrpFilled (additions : List (Addition ℚ)) : Frrp.PoisonCache :=
  additions.foldl (fun cache added => Frrp.PoisonCache.addPoisonSet cache added.poisons added.path added.rtts) .empty

/-- The same for the copy that the PEERING scripts have. -/
def filled (floats : Floats) (additions : List (Addition (Asn × ℚ))) : PoisonCache :=
  additions.foldl (fun cache added => cache.addPoisonSet floats added.poisons added.path added.rtts) .empty

theorem getPath_frrpFilled (additions : List (Addition ℚ)) (poisons : Finset Asn) :
    (frrpFilled additions).getPath poisons = true ↔ poisons ∈ additions.map Addition.poisons := by
  refine (Dict.isSome_get?_foldl_set (fun added : Addition ℚ => Frrp.getPoisonId added.poisons)
    (fun added => (added.path, added.rtts)) additions .empty (Frrp.getPoisonId poisons)).trans ?_
  simp [Frrp.getPoisonId_injective.eq_iff]

theorem getPath_filled (floats : Floats) (additions : List (Addition (Asn × ℚ))) (poisons : Finset Asn) :
    (filled floats additions).getPath poisons = true ↔ poisons ∈ additions.map Addition.poisons := by
  refine (Dict.isSome_get?_foldl_set (fun added : Addition (Asn × ℚ) => getPoisonId added.poisons)
    (fun added => (added.path, getKvString floats added.rtts)) additions .empty (getPoisonId poisons)).trans ?_
  simp [getPoisonId_injective.eq_iff]

end Caches

/-- A lookup finds exactly the sets that were added, in whatever orders they iterate. -/
theorem poison_ids_determine :
    (∀ set order, Iterates set order → Frrp.getPoisonId set = joinSorted '-' order ∧ getPoisonId set = joinSorted ',' order) ∧
    (∀ first second, Frrp.getPoisonId first = Frrp.getPoisonId second ↔ first = second) ∧
    (∀ first second, getPoisonId first = getPoisonId second ↔ first = second) ∧
    (∀ additions poisons, (frrpFilled additions).getPath poisons = true ↔ poisons ∈ additions.map Addition.poisons) ∧
    ∀ floats additions poisons,
      (filled floats additions).getPath poisons = true ↔ poisons ∈ additions.map Addition.poisons :=
  ⟨fun _ _ iterates => ⟨frrp_getPoisonId_iterated iterates, getPoisonId_iterated iterates⟩,
    fun _ _ => Frrp.getPoisonId_injective.eq_iff, fun _ _ => getPoisonId_injective.eq_iff,
    getPath_frrpFilled, getPath_filled⟩

end ActiveBgp.Peering
