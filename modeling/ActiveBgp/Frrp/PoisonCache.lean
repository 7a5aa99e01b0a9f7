import ActiveBgp.Frrp.Traceroute

namespace ActiveBgp.Frrp

open ActiveBgp.Python

def getPoisonId (poisons : Finset Asn) : Text := "-".toList.intercalate ((sorted poisons).map Text.ofInt)

theorem getPoisonId_injective : Function.Injective getPoisonId :=
  (Text.intercalate_ofInt_injective (by decide)).comp sorted_injective

abbrev PoisonCache := Dict Text (List Asn × List ℚ)

namespace PoisonCache

def addPoisonSet (cache : PoisonCache) (poisons : Finset Asn) (path : List Asn) (rtts : List ℚ) : PoisonCache :=
  cache.set (getPoisonId poisons) (path, rtts)

/-- An entry is a pair, so it is never falsy. -/
def getPath (cache : PoisonCache) (poisons : Finset Asn) : Bool := (cache.get? (getPoisonId poisons)).isSome

/-- The cache has the entries of the given sets, in the order in which they were added. -/
def Holds (cache : PoisonCache) (sets : List (Finset Asn)) : Prop := cache.keys = sets.map getPoisonId

theorem Holds.getPath {cache : PoisonCache} {sets : List (Finset Asn)} (holds : cache.Holds sets)
    (poisons : Finset Asn) : cache.getPath poisons = true ↔ poisons ∈ sets :=
  Dict.isSome_get?_iff_of_keys getPoisonId_injective holds poisons

theorem Holds.add {cache : PoisonCache} {sets : List (Finset Asn)} (holds : cache.Holds sets) {poisons : Finset Asn}
    (new : poisons ∉ sets) (path : List Asn) (rtts : List ℚ) :
    (cache.addPoisonSet poisons path rtts).Holds (sets ++ [poisons]) :=
  Dict.keys_set_of_keys getPoisonId_injective holds new (path, rtts)

end PoisonCache

end ActiveBgp.Frrp
