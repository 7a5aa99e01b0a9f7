import ActiveBgp.Rib.Removal

namespace ActiveBgp.Rib

open ActiveBgp.Python ActiveBgp.Data

variable {ip : Ipaddress}

/-! # Keyword arguments as a set

A new entry is built by the constructor, an old one by one assignment after the
other.  Both give the entry that has the given values and keeps the others.  The
assignments are announced one at a time, so that their order shows just where a
keyword alone could not be announced.
-/

/-- What `next_hop` becomes. -/
def NextHop.read (ip : Ipaddress) (value : Value) : Option (NextHop ip) :=
  if value = .str "self".toList then some .self else (ip.address? value).map .address

/-- A value that passes its check; communities are strings with a colon. -/
def Kwarg.Valid (ip : Ipaddress) : Kwarg → Prop
  | .nextHop value => (NextHop.read ip value).isSome = true
  | .list name items => (∃ stored, bgpList name.check items = .ok stored) ∧
      (name = .community → ∀ value ∈ items, ∃ text, value = .str text ∧ ':' ∈ text)
  | .announce _ => True
  | .other _ => False

/-- The entry has the value of the keyword, in normal form. -/
def Kwarg.HoldsIn (nlri : NLRI ip) : Kwarg → Prop
  | .nextHop value => NextHop.read ip value = some nlri.nextHop
  | .list name items => bgpList name.check items = .ok (nlri.list name)
  | .announce value => nlri.announce = value
  | .other _ => True

/-- The entry has the given values, and those of the old entry otherwise. -/
structure Takes (kwargs : List Kwarg) (old after : NLRI ip) : Prop where
  given : ∀ kwarg ∈ kwargs, kwarg.HoldsIn after
  nextHop : (∀ value, .nextHop value ∉ kwargs) → after.nextHop = old.nextHop
  list : ∀ name, (∀ items, .list name items ∉ kwargs) → after.list name = old.list name
  announce : (∀ value, .announce value ∉ kwargs) → after.announce = old.announce
  routePrefix : after.routePrefix = old.routePrefix

/-- The entry that the constructor makes of the prefix alone. -/
def NLRI.fresh (network : ip.Network) : NLRI ip where
  announce := true
  nextHop := .self
  community := []
  asSeq := []
  asSet := []
  routePrefix := network

section Values

variable {kwargs first second order : List Kwarg} {kwarg : Kwarg} {old middle after left right nlri : NLRI ip}

theorem Takes.perm (takes : Takes kwargs old after) (same : order.Perm kwargs) : Takes order old after where
  given kwarg member := takes.given kwarg (same.mem_iff.mp member)
  nextHop absent := takes.nextHop fun value member => absent value (same.mem_iff.mpr member)
  list name absent := takes.list name fun items member => absent items (same.mem_iff.mpr member)
  announce absent := takes.announce fun value member => absent value (same.mem_iff.mpr member)
  routePrefix := takes.routePrefix

/-- Keywords of other names leave alone what the first ones have set. -/
theorem Takes.append (early : Takes first old middle) (late : Takes second middle after)
    (apart : ∀ kwarg ∈ first, ∀ other ∈ second, kwarg.name ≠ other.name) : Takes (first ++ second) old after where
  given kwarg member := by
    rcases List.mem_append.mp member with inFirst | inSecond
    · have holds := early.given kwarg inFirst
      have differs := apart kwarg inFirst
      cases kwarg with
      | nextHop value => exact holds.trans (congrArg some (late.nextHop fun _ other => differs _ other rfl).symm)
      | list name items =>
          refine holds.trans (congrArg Except.ok (late.list name fun _ other => differs _ other ?_).symm)
          cases name <;> rfl
      | announce value => exact (late.announce fun _ other => differs _ other rfl).trans holds
      | other name => trivial
    · exact late.given kwarg inSecond
  nextHop absent := by
    have inSecond := late.nextHop fun value member => absent value (List.mem_append_right _ member)
    exact inSecond.trans (early.nextHop fun value member => absent value (List.mem_append_left _ member))
  list name absent := by
    have inSecond := late.list name fun items member => absent items (List.mem_append_right _ member)
    exact inSecond.trans (early.list name fun items member => absent items (List.mem_append_left _ member))
  announce absent := by
    have inSecond := late.announce fun value member => absent value (List.mem_append_right _ member)
    exact inSecond.trans (early.announce fun value member => absent value (List.mem_append_left _ member))
  routePrefix := late.routePrefix.trans early.routePrefix

theorem Takes.unique (leftTakes : Takes kwargs old left) (rightTakes : Takes kwargs old right) : left = right := by
  have nextHop : left.nextHop = right.nextHop := by
    by_cases given : ∃ value, Kwarg.nextHop value ∈ kwargs
    · obtain ⟨value, member⟩ := given
      exact Option.some.inj ((leftTakes.given _ member).symm.trans (rightTakes.given _ member))
    · have absent := not_exists.mp given
      exact (leftTakes.nextHop absent).trans (rightTakes.nextHop absent).symm
  have list (name : ListName) : left.list name = right.list name := by
    by_cases given : ∃ items, Kwarg.list name items ∈ kwargs
    · obtain ⟨items, member⟩ := given
      exact Except.ok.inj ((leftTakes.given _ member).symm.trans (rightTakes.given _ member))
    · have absent := not_exists.mp given
      exact (leftTakes.list name absent).trans (rightTakes.list name absent).symm
  have announce : left.announce = right.announce := by
    by_cases given : ∃ value, Kwarg.announce value ∈ kwargs
    · obtain ⟨value, member⟩ := given
      exact (leftTakes.given _ member).trans (rightTakes.given _ member).symm
    · have absent := not_exists.mp given
      exact (leftTakes.announce absent).trans (rightTakes.announce absent).symm
  have routePrefix := leftTakes.routePrefix.trans rightTakes.routePrefix.symm
  have community := list .community
  have asSeq := list .asSeq
  have asSet := list .asSet
  cases left
  cases right
  simp_all [NLRI.list]

theorem NLRI.list_setList (nlri : NLRI ip) (items : List Value) (name other : ListName) :
    (nlri.setList items name).list other = if other = name then items else nlri.list other := by
  cases name <;> cases other <;> rfl

theorem NextHop.read_eq_some {value : Value} {hop : NextHop ip} (read : NextHop.read ip value = some hop)
    (nlri : NLRI ip) : nlri.assign (.nextHop value) = .ok { nlri with nextHop := hop } := by
  unfold NextHop.read at read
  simp only [NLRI.assign]
  split at read
  · rename_i isSelf
    cases read
    rw [if_pos isSelf]
  · rename_i notSelf
    obtain ⟨host, parsed, rfl⟩ := Option.map_eq_some_iff.mp read
    rw [if_neg notSelf, parsed]

theorem Kwarg.Valid.assign (valid : kwarg.Valid ip) (nlri : NLRI ip) :
    ∃ after, nlri.assign kwarg = .ok after ∧ Takes [kwarg] nlri after := by
  cases kwarg with
  | other name => exact valid.elim
  | announce value =>
      refine ⟨{ nlri with announce := value }, rfl, by simp [Kwarg.HoldsIn], fun _ => rfl, fun _ _ => rfl, ?_, rfl⟩
      exact fun absent => absurd (List.mem_singleton_self _) (absent value)
  | nextHop value =>
      obtain ⟨hop, read⟩ := Option.isSome_iff_exists.mp valid
      refine ⟨_, NextHop.read_eq_some read nlri, by simp [Kwarg.HoldsIn, read], ?_, fun _ _ => rfl, fun _ => rfl, rfl⟩
      exact fun absent => absurd (List.mem_singleton_self _) (absent value)
  | list name items =>
      obtain ⟨⟨stored, built⟩, _⟩ := valid
      refine ⟨nlri.setList stored name, by simp [NLRI.assign, built, Except.map], ?_, ?_, ?_, ?_, ?_⟩
      · simp [Kwarg.HoldsIn, built, NLRI.list_setList]
      · cases name <;> exact fun _ => rfl
      · intro other absent
        rw [NLRI.list_setList, if_neg]
        rintro rfl
        exact absent items (List.mem_singleton_self _)
      · cases name <;> exact fun _ => rfl
      · cases name <;> rfl

theorem takes_foldlM (valid : ∀ kwarg ∈ kwargs, kwarg.Valid ip) (distinct : (kwargs.map Kwarg.name).Nodup)
    (nlri : NLRI ip) : ∃ after, kwargs.foldlM NLRI.assign nlri = .ok after ∧ Takes kwargs nlri after := by
  induction kwargs generalizing nlri with
  | nil => exact ⟨nlri, rfl, by simp, fun _ => rfl, fun _ _ => rfl, fun _ => rfl, rfl⟩
  | cons first rest ih =>
      obtain ⟨fresh, distinctRest⟩ := List.nodup_cons.mp distinct
      obtain ⟨next, assigned, early⟩ := (valid first (by simp)).assign nlri
      obtain ⟨after, done, late⟩ := ih (fun kwarg member => valid kwarg (by simp [member])) distinctRest next
      refine ⟨after, by rw [List.foldlM_cons, assigned]; exact done, early.append late ?_⟩
      intro kwarg member other later same
      rw [List.mem_singleton.mp member] at same
      exact fresh (same ▸ List.mem_map_of_mem later)

theorem findSome?_only {α β : Type} {items : List α} {select : α → Option β} {item : α} {value : β}
    (member : item ∈ items) (selected : select item = some value)
    (only : ∀ other ∈ items, (select other).isSome = true → other = item) : items.findSome? select = some value := by
  cases found : items.findSome? select with
  | none =>
      rw [List.findSome?_eq_none_iff.mp found item member] at selected
      contradiction
  | some first =>
      obtain ⟨other, inside, picked⟩ := List.exists_of_findSome?_eq_some found
      obtain rfl := only other inside (by simp [picked])
      exact picked.symm.trans selected

section Distinct

variable (distinct : (kwargs.map Kwarg.name).Nodup)

include distinct

theorem findSome?_nextHop {value : Value} (member : Kwarg.nextHop value ∈ kwargs) :
    kwargs.findSome? Kwarg.nextHop? = some value := by
  refine findSome?_only member rfl fun other inside selected => ?_
  cases other with
  | nextHop given => exact List.inj_on_of_nodup_map distinct inside member rfl
  | _ => contradiction

theorem findSome?_announce {value : Bool} (member : Kwarg.announce value ∈ kwargs) :
    kwargs.findSome? Kwarg.announce? = some value := by
  refine findSome?_only member rfl fun other inside selected => ?_
  cases other with
  | announce given => exact List.inj_on_of_nodup_map distinct inside member rfl
  | _ => contradiction

theorem listIn_given {name : ListName} {items : List Value} (member : Kwarg.list name items ∈ kwargs) :
    Kwarg.listIn kwargs name = items := by
  have found : kwargs.findSome? (Kwarg.list? name) = some items := by
    refine findSome?_only member (by simp [Kwarg.list?]) fun other inside selected => ?_
    cases other with
    | list given others =>
        simp only [Kwarg.list?] at selected
        split at selected
        · rename_i same
          subst same
          exact List.inj_on_of_nodup_map distinct inside member (by cases given <;> rfl)
        · contradiction
    | _ => contradiction
  simp [Kwarg.listIn, found]

end Distinct

theorem listIn_absent {name : ListName} (absent : ∀ items, Kwarg.list name items ∉ kwargs) :
    Kwarg.listIn kwargs name = [] := by
  have missing : kwargs.findSome? (Kwarg.list? name) = none := by
    refine List.findSome?_eq_none_iff.mpr fun kwarg member => ?_
    cases kwarg with
    | list given items =>
        simp only [Kwarg.list?]
        split
        · rename_i same
          exact absurd member (same ▸ absent items)
        · rfl
    | _ => rfl
  simp [Kwarg.listIn, missing]

theorem listIn_built (valid : ∀ kwarg ∈ kwargs, kwarg.Valid ip) (distinct : (kwargs.map Kwarg.name).Nodup)
    (name : ListName) : ∃ stored, bgpList name.check (Kwarg.listIn kwargs name) = .ok stored ∧
      ((∀ items, Kwarg.list name items ∉ kwargs) → stored = []) := by
  by_cases given : ∃ items, Kwarg.list name items ∈ kwargs
  · obtain ⟨items, member⟩ := given
    obtain ⟨⟨stored, built⟩, _⟩ := valid _ member
    exact ⟨stored, by rw [listIn_given distinct member, built], fun absent => absurd member (absent items)⟩
  · exact ⟨[], by rw [listIn_absent (not_exists.mp given)]; rfl, fun _ => rfl⟩

/-- The constructor makes the same entry as assignments to the fresh one. -/
theorem takes_construct (valid : ∀ kwarg ∈ kwargs, kwarg.Valid ip) (distinct : (kwargs.map Kwarg.name).Nodup)
    (network : ip.Network) :
    ∃ after, NLRI.construct network kwargs = .ok after ∧ Takes kwargs (NLRI.fresh network) after := by
  have known : kwargs.any Kwarg.isOther = false := by
    refine List.any_eq_false.mpr fun kwarg member => ?_
    cases kwarg with
    | other name => exact (valid _ member).elim
    | _ => simp [Kwarg.isOther]
  have hopRead : ∃ hop, NextHop.read ip ((kwargs.findSome? Kwarg.nextHop?).getD (.str "self".toList)) = some hop ∧
      ((∀ value, Kwarg.nextHop value ∉ kwargs) → hop = .self) := by
    by_cases given : ∃ value, Kwarg.nextHop value ∈ kwargs
    · obtain ⟨value, member⟩ := given
      obtain ⟨hop, read⟩ := Option.isSome_iff_exists.mp (valid _ member)
      exact ⟨hop, by rwa [findSome?_nextHop distinct member], fun absent => absurd member (absent value)⟩
    · have missing : kwargs.findSome? Kwarg.nextHop? = none := List.findSome?_eq_none_iff.mpr fun kwarg member => by
        cases kwarg with
        | nextHop value => exact absurd ⟨value, member⟩ given
        | _ => rfl
      exact ⟨.self, by simp [missing, NextHop.read], fun _ => rfl⟩
  obtain ⟨hop, read, hopKept⟩ := hopRead
  obtain ⟨community, communityBuilt, communityKept⟩ := listIn_built valid distinct .community
  obtain ⟨asSeq, asSeqBuilt, asSeqKept⟩ := listIn_built valid distinct .asSeq
  obtain ⟨asSet, asSetBuilt, asSetKept⟩ := listIn_built valid distinct .asSet
  simp only [ListName.check] at communityBuilt asSeqBuilt asSetBuilt
  refine ⟨⟨(kwargs.findSome? Kwarg.announce?).getD true, hop, community, asSeq, asSet, network⟩, ?_, ?_, hopKept, ?_, ?_,
    rfl⟩
  · simp only [NLRI.construct, known, Bool.false_eq_true, if_false, communityBuilt, asSeqBuilt, asSetBuilt,
      NextHop.read_eq_some read, except_bind_ok, pure, Except.pure]
  · intro kwarg member
    cases kwarg with
    | other name => trivial
    | announce value => simp [Kwarg.HoldsIn, findSome?_announce distinct member]
    | nextHop value =>
        rw [findSome?_nextHop distinct member] at read
        exact read
    | list name items =>
        have same := listIn_given distinct member
        cases name with
        | community => exact same ▸ communityBuilt
        | asSeq => exact same ▸ asSeqBuilt
        | asSet => exact same ▸ asSetBuilt
  · intro name absent
    cases name with
    | community => exact communityKept absent
    | asSeq => exact asSeqKept absent
    | asSet => exact asSetKept absent
  · intro absent
    have missing : kwargs.findSome? Kwarg.announce? = none := List.findSome?_eq_none_iff.mpr fun kwarg member => by
      cases kwarg with
      | announce value => exact absurd member (absent value)
      | _ => rfl
    simp [missing, NLRI.fresh]

end Values

section Rendering

variable {kwargs : List Kwarg} {kwarg : Kwarg} {nlri start after : NLRI ip}

/-- The entry can be printed. -/
def NLRI.Renders (nlri : NLRI ip) : Prop := ∃ route, nlri.route = .ok route

def ListName.Prints : ListName → Value → Prop
  | .community, value => ∃ text, value.joined = .ok text
  | .asSeq, value => ∃ number, value.toInt = .ok number
  | .asSet, value => ∃ number, value.toInt = .ok number

theorem renders_iff : nlri.Renders ↔ ∀ name, ∀ value ∈ nlri.list name, name.Prints value := by
  constructor
  · rintro ⟨route, rendered⟩ name
    obtain ⟨community, communityDone, rendered⟩ := except_bind_eq_ok.mp rendered
    obtain ⟨asSeq, asSeqDone, rendered⟩ := except_bind_eq_ok.mp rendered
    obtain ⟨asSet, asSetDone, _⟩ := except_bind_eq_ok.mp rendered
    cases name with
    | community => exact mapM_ok_iff.mp ⟨community, communityDone⟩
    | asSeq => exact mapM_ok_iff.mp ⟨asSeq, asSeqDone⟩
    | asSet => exact mapM_ok_iff.mp ⟨asSet, asSetDone⟩
  · intro prints
    obtain ⟨community, communityDone⟩ := mapM_ok_iff.mpr (prints .community)
    obtain ⟨asSeq, asSeqDone⟩ := mapM_ok_iff.mpr (prints .asSeq)
    obtain ⟨asSet, asSetDone⟩ := mapM_ok_iff.mpr (prints .asSet)
    simp only [NLRI.list] at communityDone asSeqDone asSetDone
    exact ⟨_, by simp only [NLRI.route, communityDone, asSeqDone, asSetDone, except_bind_ok]; rfl⟩

theorem Kwarg.Valid.given (valid : kwarg.Valid ip) : kwarg.Given := by
  cases kwarg with
  | list name items =>
      intro value member
      cases name with
      | community =>
          obtain ⟨text, rfl, colon⟩ := valid.2 rfl value member
          exact colon
      | asSeq => trivial
      | asSet => trivial
  | _ => trivial

theorem Kwarg.Valid.prints {name : ListName} {items stored : List Value} (valid : (Kwarg.list name items).Valid ip)
    (built : bgpList name.check items = .ok stored) : ∀ value ∈ stored, name.Prints value := by
  intro value member
  have checked := bgpList_forall (fun _ _ => ListName.check_stored) valid.given built value member
  cases name with
  | community =>
      obtain ⟨text, rfl, _⟩ := checked
      exact ⟨text, rfl⟩
  | asSeq =>
      obtain ⟨asn, rfl, _⟩ := checked
      exact ⟨asn, rfl⟩
  | asSet =>
      obtain ⟨asn, rfl, _⟩ := checked
      exact ⟨asn, rfl⟩

theorem Takes.renders (takes : Takes kwargs nlri after) (valid : ∀ kwarg ∈ kwargs, kwarg.Valid ip)
    (renders : nlri.Renders) : after.Renders := by
  rw [renders_iff] at renders ⊢
  intro name
  by_cases given : ∃ items, Kwarg.list name items ∈ kwargs
  · obtain ⟨items, member⟩ := given
    exact (valid _ member).prints (takes.given _ member)
  · rw [takes.list name (not_exists.mp given)]
    exact renders name

theorem fresh_renders (network : ip.Network) : (NLRI.fresh network).Renders := ⟨_, rfl⟩

theorem accept_iff (assigned : nlri.assign kwarg = .ok after) :
    (∃ next, nlri.accept kwarg = .ok next) ↔ (kwarg.tells nlri after = true → after.Renders) := by
  rw [accept_of_assign assigned]
  cases told : kwarg.tells nlri after with
  | false => simp
  | true => cases rendered : after.route <;> simp [NLRI.Renders, rendered, Except.map]

/-- The keyword is told to the peer if it is the first one. -/
def NLRI.Stirs (nlri : NLRI ip) (kwarg : Kwarg) : Prop :=
  ∃ after, nlri.assign kwarg = .ok after ∧ kwarg.tells nlri after = true

/-- For the peer both entries are the same. -/
def Alike (start nlri : NLRI ip) : Prop :=
  nlri.announce = start.announce ∧ (nlri.announce = true → nlri = start)

theorem NLRI.assign_announce (different : ∀ value, kwarg ≠ .announce value) (assigned : nlri.assign kwarg = .ok after) :
    after.announce = nlri.announce := by
  cases kwarg with
  | announce value => exact absurd rfl (different value)
  | nextHop value => rw [NLRI.assign_nextHop assigned]
  | list name items =>
      obtain ⟨stored, _, rfl⟩ := except_map_eq_ok.mp assigned
      cases name <;> rfl
  | other name =>
      simp only [NLRI.assign] at assigned
      split at assigned
      · contradiction
      · cases assigned
        rfl

theorem Alike.tells {next : NLRI ip} (alike : Alike start nlri) (assigned : nlri.assign kwarg = .ok after)
    (first : start.assign kwarg = .ok next) : kwarg.tells nlri after = kwarg.tells start next := by
  cases announced : nlri.announce with
  | true =>
      obtain rfl := alike.2 announced
      obtain rfl : after = next := Except.ok.inj (assigned.symm.trans first)
      rfl
  | false =>
      have quiet : start.announce = false := alike.1.symm.trans announced
      -- Of an entry that is not announced, only the flag itself is told.
      by_cases flag : ∃ value, kwarg = .announce value
      · obtain ⟨value, rfl⟩ := flag
        cases assigned
        cases first
        simp [Kwarg.tells, announced, quiet]
      · have nowQuiet := (NLRI.assign_announce (not_exists.mp flag) assigned).trans announced
        have firstQuiet := (NLRI.assign_announce (not_exists.mp flag) first).trans quiet
        rw [tells_quiet announced nowQuiet, tells_quiet quiet firstQuiet]

end Rendering

section Progress

variable {kwarg : Kwarg} {nlri start after : NLRI ip} {told : Prop} {before table other : ip.Network → Option (Route ip)}
  {output : List (Command ip)}

theorem peerTable_published {route : Route ip} (rendered : nlri.route = .ok route) (output : List (Command ip)) :
    peerTable (output ++ [nlri.command route]) =
      Function.update (peerTable output) nlri.routePrefix nlri.published := by
  funext key
  rw [peerTable_command, NLRI.route_prefix rendered, Function.update_apply]
  cases announced : nlri.announce <;> simp [NLRI.published, announced, rendered, Except.toOption]

/-- What has been reached from `start`, with the peer at `before`.  The peer has been
told or both sides are as they were, as far as the peer is concerned. -/
structure Progress (told : Prop) (start nlri : NLRI ip) (before table : ip.Network → Option (Route ip)) : Prop where
  untold : ¬ told → Alike start nlri ∧ table = before
  shown : told → nlri.Renders ∧ table = Function.update before nlri.routePrefix nlri.published
  renders : start.Renders → nlri.Renders

theorem Progress.initial (nlri : NLRI ip) (table : ip.Network → Option (Route ip)) : Progress False nlri nlri table table :=
  ⟨fun _ => ⟨⟨rfl, fun _ => rfl⟩, rfl⟩, False.elim, id⟩

theorem Progress.unique (first : Progress told start nlri before table) (second : Progress told start nlri before other) :
    table = other := by
  by_cases isTold : told
  · rw [(first.shown isTold).2, (second.shown isTold).2]
  · rw [(first.untold isTold).2, (second.untold isTold).2]

section Step

variable (progress : Progress told start nlri before table) (assigned : nlri.assign kwarg = .ok after)

include progress assigned

/-- If each keyword alone can be announced, it can be announced after the others. -/
theorem Progress.fits (takes : Takes [kwarg] nlri after) (valid : kwarg.Valid ip)
    (accepted : ∃ next, start.accept kwarg = .ok next) (tells : kwarg.tells nlri after = true) : after.Renders := by
  have stays (renders : nlri.Renders) : after.Renders := takes.renders (by simpa using valid) renders
  by_cases isTold : told
  · exact stays (progress.shown isTold).1
  have alike := (progress.untold isTold).1
  obtain ⟨next, first, _⟩ := valid.assign start
  have renders := (accept_iff first).mp accepted (by rw [← alike.tells assigned first, tells])
  cases announced : nlri.announce with
  | true =>
      obtain rfl := alike.2 announced
      obtain rfl : after = next := Except.ok.inj (assigned.symm.trans first)
      exact renders
  | false =>
      by_cases flag : ∃ value, kwarg = .announce value
      · obtain ⟨value, rfl⟩ := flag
        cases first
        exact stays (progress.renders renders)
      · have quiet := (NLRI.assign_announce (not_exists.mp flag) assigned).trans announced
        rw [tells_quiet announced quiet] at tells
        contradiction

theorem Progress.silent (takes : Takes [kwarg] nlri after) (valid : kwarg.Valid ip)
    (silent : kwarg.tells nlri after = false) : Progress (told ∨ start.Stirs kwarg) start after before table := by
  obtain ⟨same, unseen⟩ := NLRI.assign_silent assigned silent
  have stays (renders : nlri.Renders) : after.Renders := takes.renders (by simpa using valid) renders
  have published : after.published = nlri.published := by
    cases announced : after.announce with
    | true => rw [unseen announced]
    | false => simp [NLRI.published, announced, same ▸ announced]
  have told_of (either : told ∨ start.Stirs kwarg) : told := by
    by_contra untold
    obtain ⟨next, first, stirs⟩ := either.resolve_left untold
    rw [← (progress.untold untold).1.tells assigned first, silent] at stirs
    contradiction
  refine ⟨fun neither => ?_, fun either => ?_, fun renders => stays (progress.renders renders)⟩
  · obtain ⟨⟨flag, equal⟩, unchanged⟩ := progress.untold fun isTold => neither (.inl isTold)
    refine ⟨⟨same.trans flag, fun announced => ?_⟩, unchanged⟩
    rw [unseen announced]
    exact equal (same ▸ announced)
  · obtain ⟨renders, shown⟩ := progress.shown (told_of either)
    exact ⟨stays renders, by rw [shown, published, takes.routePrefix]⟩

theorem Progress.tell (takes : Takes [kwarg] nlri after) (valid : kwarg.Valid ip)
    (tells : kwarg.tells nlri after = true) (renders : after.Renders) :
    Progress (told ∨ start.Stirs kwarg) start after before
      (Function.update table after.routePrefix after.published) := by
  obtain ⟨next, first, _⟩ := valid.assign start
  have isTold : told ∨ start.Stirs kwarg := by
    by_cases already : told
    · exact .inl already
    · exact .inr ⟨next, first, by rw [← (progress.untold already).1.tells assigned first, tells]⟩
  refine ⟨fun neither => absurd isTold neither, fun _ => ⟨renders, ?_⟩, fun _ => renders⟩
  by_cases already : told
  · rw [(progress.shown already).2, takes.routePrefix, Function.update_idem]
  · rw [(progress.untold already).2]

end Step

end Progress

section Runs

variable {state : State ip} {network : ip.Network} {nlri start entry : NLRI ip} {kwargs order : List Kwarg} {told : Prop}
  {before : ip.Network → Option (Route ip)} {text : Text}

theorem setattrs_progress (found : state.nlri.get? network = some nlri)
    (progress : Progress told start nlri before (peerTable state.output))
    (valid : ∀ kwarg ∈ kwargs, kwarg.Valid ip) (accepted : ∀ kwarg ∈ kwargs, ∃ next, start.accept kwarg = .ok next) :
    ∃ last after, kwargs.foldlM NLRI.assign nlri = .ok last ∧ RIB.setattrs network kwargs state = .ok () after ∧
      after.nlri = state.nlri.set network last ∧
      Progress (told ∨ ∃ kwarg ∈ kwargs, start.Stirs kwarg) start last before (peerTable after.output) := by
  induction kwargs generalizing state nlri told with
  | nil => exact ⟨nlri, state, rfl, rfl, (Dict.set_of_get? found).symm, by simpa using progress⟩
  | cons kwarg rest ih =>
      have first := valid kwarg (by simp)
      obtain ⟨next, assigned, takes⟩ := first.assign nlri
      have later {output : List (Command ip)}
          (reached : Progress (told ∨ start.Stirs kwarg) start next before (peerTable output)) :=
        ih (get?_store state network next output) reached (fun other member => valid other (by simp [member]))
          (fun other member => accepted other (by simp [member]))
      have regroup : ((told ∨ start.Stirs kwarg) ∨ ∃ other ∈ rest, start.Stirs other) ↔
          (told ∨ ∃ other ∈ kwarg :: rest, start.Stirs other) := by simp [or_assoc]
      rw [regroup] at later
      simp only [List.foldlM_cons, assigned, except_bind_ok, setattrs_cons found]
      cases tells : kwarg.tells nlri next with
      | false =>
          obtain ⟨last, after, done, returned, stored, reached⟩ := later (progress.silent assigned takes first tells)
          exact ⟨last, after, done, by simpa using returned, by rw [stored, Dict.set_set], reached⟩
      | true =>
          have renders := progress.fits assigned takes first (accepted kwarg (by simp)) tells
          obtain ⟨route, rendered⟩ := renders
          have now := progress.tell assigned takes first tells ⟨route, rendered⟩
          rw [← peerTable_published rendered] at now
          obtain ⟨last, after, done, returned, stored, reached⟩ := later now
          exact ⟨last, after, done, by simpa [rendered] using returned, by rw [stored, Dict.set_set], reached⟩

theorem Kwarg.HoldsIn.assign {kwarg : Kwarg} (holds : kwarg.HoldsIn entry) (valid : kwarg.Valid ip) :
    entry.assign kwarg = .ok entry := by
  obtain ⟨after, assigned, takes⟩ := valid.assign entry
  have unchanged : Takes [kwarg] entry entry := ⟨by simpa using holds, fun _ => rfl, fun _ _ => rfl, fun _ => rfl, rfl⟩
  rw [assigned, takes.unique unchanged]

/-- Values that the entry has are assigned again, and at most printed again. -/
theorem setattrs_again (found : state.nlri.get? network = some entry) (valid : ∀ kwarg ∈ kwargs, kwarg.Valid ip)
    (holds : ∀ kwarg ∈ kwargs, kwarg.HoldsIn entry)
    (shown : ∀ kwarg ∈ kwargs, kwarg.tells entry entry = true →
      entry.Renders ∧ peerTable state.output entry.routePrefix = entry.published) :
    ∃ again, RIB.setattrs network kwargs state = .ok () again ∧ again.nlri = state.nlri ∧
      peerTable again.output = peerTable state.output := by
  induction kwargs generalizing state with
  | nil => exact ⟨state, rfl, rfl, rfl⟩
  | cons kwarg rest ih =>
      have assigned := (holds kwarg (by simp)).assign (valid kwarg (by simp))
      have later {output : List (Command ip)} (same : peerTable output = peerTable state.output) :=
        @ih { state with output } found (fun other member => valid other (by simp [member]))
          (fun other member => holds other (by simp [member]))
          (fun other member tells => by
            have now := shown other (by simp [member]) tells
            exact ⟨now.1, by rw [same, now.2]⟩)
      simp only [setattrs_cons found, assigned, Dict.set_of_get? found]
      cases tells : kwarg.tells entry entry with
      | false =>
          obtain ⟨again, returned, kept, table⟩ := later rfl
          exact ⟨again, by simpa using returned, kept, table⟩
      | true =>
          obtain ⟨⟨route, rendered⟩, atPrefix⟩ := shown kwarg (by simp) tells
          have same : peerTable (state.output ++ [entry.command route]) = peerTable state.output := by
            rw [peerTable_published rendered, ← atPrefix, Function.update_eq_self]
          obtain ⟨again, returned, kept, table⟩ := later same
          exact ⟨again, by simpa [rendered] using returned, kept, table.trans same⟩

/-- In every order the keywords give the same RIB and the same table, and once more
nothing changes. -/
def Settles (text : Text) (network : ip.Network) (kwargs : List Kwarg) (state : State ip) : Prop :=
  ∃ entry table, Takes kwargs ((state.nlri.get? network).getD (NLRI.fresh network)) entry ∧
    ∀ order : List Kwarg, order.Perm kwargs → ∃ after again,
      RIB.add text order state = .ok () after ∧ after.nlri = state.nlri.set network entry ∧
      peerTable after.output = table ∧
      RIB.add text order after = .ok () again ∧ again.nlri = after.nlri ∧ peerTable again.output = table

/-- Each keyword that the peer would be told of leaves, on its own, an entry that can be printed. -/
def NLRI.Announceable (nlri : NLRI ip) (kwargs : List Kwarg) : Prop :=
  ∀ kwarg ∈ kwargs, ∀ after, nlri.assign kwarg = .ok after → kwarg.tells nlri after = true → after.Renders

section Orders

variable (parsed : ip.network? text = some network) (valid : ∀ kwarg ∈ kwargs, kwarg.Valid ip)

include parsed valid

theorem settles_absent (distinct : (kwargs.map Kwarg.name).Nodup) (missing : state.nlri.get? network = none) :
    Settles text network kwargs state := by
  obtain ⟨entry, _, takes⟩ := takes_construct valid distinct network
  have atNetwork : entry.routePrefix = network := takes.routePrefix
  obtain ⟨route, rendered⟩ := takes.renders valid (fresh_renders network)
  refine ⟨entry, if entry.announce then Function.update (peerTable state.output) entry.routePrefix entry.published
    else peerTable state.output, by rwa [missing], fun order same => ?_⟩
  have validOrder : ∀ kwarg ∈ order, kwarg.Valid ip := fun kwarg member => valid kwarg (same.mem_iff.mp member)
  obtain ⟨other, built, otherTakes⟩ := takes_construct validOrder ((same.map _).nodup_iff.mpr distinct) network
  obtain rfl := (otherTakes.perm same.symm).unique takes
  have repeated (output : List (Command ip))
      (shown : other.announce = true → peerTable output other.routePrefix = other.published) :
      ∃ again, RIB.add text order { state with nlri := state.nlri.set network other, output } = .ok () again ∧
        again.nlri = state.nlri.set network other ∧ peerTable again.output = peerTable output := by
    have found := get?_store state network other output
    rw [add_present parsed found]
    refine setattrs_again found validOrder otherTakes.given fun kwarg member tells => ⟨⟨route, rendered⟩, shown ?_⟩
    by_contra quiet
    rw [tells_quiet (by simpa using quiet) (by simpa using quiet)] at tells
    contradiction
  have added : RIB.add text order state = _ := add_absent parsed missing
  cases announced : other.announce with
  | false =>
      simp only [built, announced, Bool.false_eq_true, if_false, atNetwork] at added
      obtain ⟨again, returned, kept, table⟩ := repeated state.output (by simp [announced])
      exact ⟨_, again, added, rfl, by simp, returned, kept, by simpa using table⟩
  | true =>
      have command : other.command route = .announce route := by simp [NLRI.command, announced]
      simp only [built, announced, if_true, rendered, atNetwork, ← command] at added
      have now := peerTable_published rendered state.output
      obtain ⟨again, returned, kept, table⟩ := repeated (state.output ++ [other.command route])
        fun _ => by rw [now, Function.update_self]
      exact ⟨_, again, added, rfl, by simpa using now, returned, kept, by simpa using table.trans now⟩

theorem settles_present {nlri : NLRI ip} (distinct : (kwargs.map Kwarg.name).Nodup)
    (found : state.nlri.get? network = some nlri) (announceable : nlri.Announceable kwargs) :
    Settles text network kwargs state := by
  have accepted : ∀ kwarg ∈ kwargs, ∃ next, nlri.accept kwarg = .ok next := fun kwarg member => by
    obtain ⟨after, assigned, _⟩ := (valid kwarg member).assign nlri
    exact (accept_iff assigned).mpr (announceable kwarg member after assigned)
  obtain ⟨entry, _, takes⟩ := takes_foldlM valid distinct nlri
  have reach (order : List Kwarg) (same : order.Perm kwargs) : ∃ after, RIB.add text order state = .ok () after ∧
      after.nlri = state.nlri.set network entry ∧
      Progress (∃ kwarg ∈ kwargs, nlri.Stirs kwarg) nlri entry (peerTable state.output) (peerTable after.output) := by
    have validOrder : ∀ kwarg ∈ order, kwarg.Valid ip := fun kwarg member => valid kwarg (same.mem_iff.mp member)
    obtain ⟨last, after, done, returned, stored, progress⟩ := setattrs_progress found
      (Progress.initial nlri (peerTable state.output)) validOrder fun kwarg member => accepted kwarg (same.mem_iff.mp member)
    obtain ⟨other, folded, otherTakes⟩ := takes_foldlM validOrder ((same.map _).nodup_iff.mpr distinct) nlri
    obtain rfl : other = last := Except.ok.inj (folded.symm.trans done)
    obtain rfl := (otherTakes.perm same.symm).unique takes
    refine ⟨after, by rw [add_present parsed found, returned], stored, ?_⟩
    simpa only [false_or, same.mem_iff] using progress
  obtain ⟨first, _, _, reached⟩ := reach kwargs (.refl _)
  refine ⟨entry, peerTable first.output, by rwa [found], fun order same => ?_⟩
  obtain ⟨after, returned, stored, progress⟩ := reach order same
  have atNetwork : after.nlri.get? network = some entry := by rw [stored, Dict.get?_set_self]
  have shown (kwarg : Kwarg) (member : kwarg ∈ order) (tells : kwarg.tells entry entry = true) :
      entry.Renders ∧ peerTable after.output entry.routePrefix = entry.published := by
    have inside := same.mem_iff.mp member
    have isTold : ∃ kwarg ∈ kwargs, nlri.Stirs kwarg := by
      by_contra untold
      obtain ⟨next, assigned, _⟩ := (valid kwarg inside).assign nlri
      have again := (takes.given kwarg inside).assign (valid kwarg inside)
      refine untold ⟨kwarg, inside, next, assigned, ?_⟩
      rw [← (progress.untold untold).1.tells again assigned, tells]
    obtain ⟨renders, table⟩ := progress.shown isTold
    exact ⟨renders, by rw [table, Function.update_self]⟩
  obtain ⟨again, repeated, kept, table⟩ := setattrs_again atNetwork
    (fun kwarg member => valid kwarg (same.mem_iff.mp member))
    (fun kwarg member => takes.given kwarg (same.mem_iff.mp member)) shown
  have unchanged := progress.unique reached
  exact ⟨after, again, returned, stored, unchanged, by rw [add_present parsed atNetwork, repeated], kept,
    table.trans unchanged⟩

end Orders

/-- A keyword that cannot be announced on its own makes the update raise when it comes first. -/
theorem Settles.announceable {nlri : NLRI ip} (parsed : ip.network? text = some network)
    (settles : Settles text network kwargs state)
    (found : state.nlri.get? network = some nlri) : nlri.Announceable kwargs := by
  intro kwarg member after assigned tells
  obtain ⟨entry, table, _, orders⟩ := settles
  obtain ⟨last, again, returned, _⟩ := orders (kwarg :: kwargs.erase kwarg) (List.perm_cons_erase member).symm
  rw [add_present parsed found, setattrs_cons found, assigned] at returned
  simp only [tells, if_true] at returned
  cases rendered : after.route with
  | ok route => exact ⟨route, rendered⟩
  | error error =>
      rw [rendered] at returned
      contradiction

/-- The order of the keywords does not matter, exactly if each of them could be the first. -/
theorem add_settles_iff (state : State ip) (parsed : ip.network? text = some network)
    (valid : ∀ kwarg ∈ kwargs, kwarg.Valid ip) (distinct : (kwargs.map Kwarg.name).Nodup) :
    Settles text network kwargs state ↔
      ∀ nlri, state.nlri.get? network = some nlri → nlri.Announceable kwargs := by
  constructor
  · intro settles nlri found
    exact settles.announceable parsed found
  · intro announceable
    cases found : state.nlri.get? network with
    | none => exact settles_absent parsed valid distinct found
    | some nlri => exact settles_present parsed valid distinct found (announceable nlri found)

theorem Mirrored.settles (mirrored : Mirrored state) (parsed : ip.network? text = some network)
    (valid : ∀ kwarg ∈ kwargs, kwarg.Valid ip) (distinct : (kwargs.map Kwarg.name).Nodup) :
    Settles text network kwargs state := by
  cases found : state.nlri.get? network with
  | none => exact settles_absent parsed valid distinct found
  | some nlri =>
      obtain ⟨route, rendered, _⟩ := (mirrored.entries network nlri found).1.route
      refine settles_present parsed valid distinct found fun kwarg member after assigned _ => ?_
      obtain ⟨next, first, takes⟩ := (valid kwarg member).assign nlri
      obtain rfl : after = next := Except.ok.inj (assigned.symm.trans first)
      exact takes.renders (by simpa using valid kwarg member) ⟨route, rendered⟩

end Runs

section Example

def hopThenCommunity : List Kwarg :=
  [.nextHop (.str "192.0.2.1".toList), .list .community [.str "1:2".toList]]

theorem hopThenCommunity_valid : ∀ kwarg ∈ hopThenCommunity, kwarg.Valid ipv4 := by
  intro kwarg member
  simp only [hopThenCommunity, List.mem_cons, List.not_mem_nil, or_false] at member
  rcases member with rfl | rfl
  · exact (by decide +kernel : (NextHop.read ipv4 (.str "192.0.2.1".toList)).isSome = true)
  · refine ⟨⟨[.str "1:2".toList], by decide +kernel⟩, fun _ value inside => ?_⟩
    rw [List.mem_singleton.mp inside]
    exact ⟨_, rfl, by decide⟩

theorem hopThenCommunity_distinct : (hopThenCommunity.map Kwarg.name).Nodup := by decide

/-- An entry with a community that is a number takes a next hop only after new communities. -/
theorem order_matters : ¬ ∀ (steps : List (Step ipv4)) (text : Text) (network : ipv4.Network) (kwargs : List Kwarg),
    ipv4.network? text = some network → (∀ kwarg ∈ kwargs, kwarg.Valid ipv4) → (kwargs.map Kwarg.name).Nodup →
    Settles text network kwargs (run steps (State.empty ipv4)) := by
  intro all
  obtain ⟨entry, table, _, orders⟩ := all numberedCommunity "192.0.2.0/24".toList exampleNetwork hopThenCommunity
    (by decide +kernel) hopThenCommunity_valid hopThenCommunity_distinct
  obtain ⟨after, again, done, _⟩ := orders hopThenCommunity (.refl _)
  have raises : returned (RIB.add "192.0.2.0/24".toList hopThenCommunity
    (run numberedCommunity (State.empty ipv4))) = false := by decide +kernel
  rw [done] at raises
  contradiction

theorem add_settles_iff_example :
    Settles "192.0.2.0/24".toList exampleNetwork hopThenCommunity announcedState ↔
      ∀ nlri, announcedState.nlri.get? exampleNetwork = some nlri → nlri.Announceable hopThenCommunity :=
  add_settles_iff announcedState (by decide +kernel) hopThenCommunity_valid hopThenCommunity_distinct

end Example

end ActiveBgp.Rib
