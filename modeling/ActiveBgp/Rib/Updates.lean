import ActiveBgp.Rib.Runs

namespace ActiveBgp.Rib

open ActiveBgp.Python ActiveBgp.Data

variable {ip : Ipaddress}

/-! # Updates that raise

Nothing is stored for a prefix whose NLRI cannot be built.  For a prefix that is
present the keywords are assigned, and announced, one at a time, so that what an
update leaves behind when it raises depends on the keywords before the bad one.
-/

/-- Whether the setter gets as far as a line for ExaBGP. -/
def Kwarg.tells (before after : NLRI ip) : Kwarg → Bool
  | .nextHop _ => after.announce && before.nextHop ≠ after.nextHop
  | .list _ _ => after.announce
  | .announce _ => before.announce ≠ after.announce
  | .other _ => false

/-- The line that tells the peer about the entry. -/
def NLRI.command (nlri : NLRI ip) (route : Route ip) : Command ip :=
  if nlri.announce then .announce route else .withdraw route

section Setters

variable (nlri : NLRI ip) (output : List (Command ip))

theorem printing_callback : (printing ip).callback ⟨nlri, output⟩ =
    if nlri.announce then
      match nlri.route with
      | .error error => .error error ⟨nlri, output⟩
      | .ok route => .ok () ⟨nlri, output ++ [nlri.command route]⟩
    else .ok () ⟨nlri, output⟩ := by
  cases announced : nlri.announce <;> cases rendered : nlri.route <;>
    simp [Methods.callback, Effect.bind_eq, Effect.within, printing, announced, rendered, fprint, NLRI.command]

theorem printing_withdrawal (quiet : nlri.announce = false) : (printing ip).withdrawal ⟨nlri, output⟩ =
    match nlri.route with
    | .error error => .error error ⟨nlri, output⟩
    | .ok route => .ok () ⟨nlri, output ++ [nlri.command route]⟩ := by
  cases rendered : nlri.route <;>
    simp [Methods.withdrawal, Effect.bind_eq, Effect.within, printing, quiet, rendered, fprint, NLRI.command]

theorem printing_assignList (name : ListName) (items : List Value) : (printing ip).assignList name items ⟨nlri, output⟩ =
    match bgpList name.check items with
    | .error error => .error error ⟨nlri, output⟩
    | .ok stored => (printing ip).callback ⟨nlri.setList stored name, output⟩ := by
  cases built : bgpList name.check items <;>
    simp [Methods.assignList, Methods.callbackAfter, Effect.bind_eq, built]

/-- A setter that is refused changes nothing; one that cannot render the entry has changed it. -/
theorem printing_setattr (kwarg : Kwarg) : (printing ip).setattr kwarg ⟨nlri, output⟩ =
    match nlri.assign kwarg with
    | .error error => .error error ⟨nlri, output⟩
    | .ok after =>
        if kwarg.tells nlri after then
          match after.route with
          | .error error => .error error ⟨after, output⟩
          | .ok route => .ok () ⟨after, output ++ [after.command route]⟩
        else .ok () ⟨after, output⟩ := by
  cases kwarg with
  | other name =>
      by_cases fixed : name.val ∈ Methods.readOnly <;> simp [Methods.setattr, NLRI.assign, fixed, Kwarg.tells]
  | announce value =>
      simp only [Methods.setattr, Methods.setAnnounce, NLRI.assign, Effect.bind_eq, Effect.get_apply, Kwarg.tells]
      by_cases same : nlri.announce = value
      · subst same
        simp
      · cases value with
        | true => simp [same, Effect.bind_eq, printing_callback]
        | false => simp [same, Effect.bind_eq, printing_withdrawal]
  | list name items =>
      have same : (printing ip).setattr (.list name items) ⟨nlri, output⟩ =
          (printing ip).assignList name items ⟨nlri, output⟩ := by cases name <;> rfl
      rw [same, printing_assignList, NLRI.assign]
      cases bgpList name.check items with
      | error error => rfl
      | ok stored => exact printing_callback _ output
  | nextHop value =>
      -- The hop that is already there is not announced again.
      have kept (hop : NextHop ip) (same : nlri.nextHop = hop) : ({ nlri with nextHop := hop } : NLRI ip) = nlri := by
        rw [← same]
      simp only [Methods.setattr, Methods.setNextHop, NLRI.assign, Effect.bind_eq, Effect.get_apply]
      by_cases isSelf : value = .str "self".toList
      · simp only [if_pos isSelf]
        by_cases same : nlri.nextHop = .self
        · simp [same, kept _ same, Kwarg.tells]
        · simp [same, Effect.bind_eq, printing_callback, Kwarg.tells]
      · simp only [if_neg isSelf]
        cases parsed : ip.address? value with
        | none => rfl
        | some host =>
            by_cases same : nlri.nextHop = .address host
            · simp [same, kept _ same, Kwarg.tells]
            · simp [same, Effect.bind_eq, printing_callback, Kwarg.tells]

end Setters

def Kwarg.name : Kwarg → Text
  | .nextHop _ => "next_hop".toList
  | .list .community _ => "community".toList
  | .list .asSeq _ => "as_seq".toList
  | .list .asSet _ => "as_set".toList
  | .announce _ => "announce".toList
  | .other name => name.val

/-- The entry after a keyword that passes its check, if the peer can be told of it. -/
def NLRI.accept (nlri : NLRI ip) (kwarg : Kwarg) : Except PyError (NLRI ip) := do
  let after ← nlri.assign kwarg
  if kwarg.tells nlri after then
    let _ ← after.route
  return after

/-- The keyword gives the entry the value that it has, and nothing is printed. -/
def NLRI.Idle (nlri : NLRI ip) (kwarg : Kwarg) : Prop :=
  nlri.assign kwarg = .ok nlri ∧ kwarg.tells nlri nlri = false

/-- The keyword fails, and not for a value that the entry did not have before. -/
def NLRI.Refuses (nlri : NLRI ip) (kwarg : Kwarg) : Prop :=
  (∀ after, nlri.accept kwarg ≠ .ok after) ∧ ∀ after, nlri.assign kwarg = .ok after → after = nlri

/-- No keyword fails, or the first one that is not idle is refused. -/
def Atomic (nlri : NLRI ip) : List Kwarg → Prop
  | [] => True
  | kwarg :: rest =>
      (nlri.Idle kwarg ∧ Atomic nlri rest) ∨ nlri.Refuses kwarg ∨
        ∃ last, (kwarg :: rest).foldlM NLRI.accept nlri = .ok last

/-- What an accepted keyword does to an entry, whichever entry it is. -/
inductive Change (ip : Ipaddress) where
  | nextHop (hop : NextHop ip)
  | list (name : ListName) (items : List Value)
  | announce (value : Bool)
  | nothing (name : Text)

namespace Change

def name : Change ip → Text
  | .nextHop _ => "next_hop".toList
  | .list name _ => (Kwarg.list name []).name
  | .announce _ => "announce".toList
  | .nothing name => name

def apply (nlri : NLRI ip) : Change ip → NLRI ip
  | .nextHop hop => { nlri with nextHop := hop }
  | .list name items => nlri.setList items name
  | .announce value => { nlri with announce := value }
  | .nothing _ => nlri

theorem apply_again (change : Change ip) (nlri : NLRI ip) :
    change.apply (change.apply nlri) = change.apply nlri := by
  cases change with
  | list name items => cases name <;> rfl
  | _ => rfl

theorem apply_comm {first second : Change ip} (different : first.name ≠ second.name) (nlri : NLRI ip) :
    first.apply (second.apply nlri) = second.apply (first.apply nlri) := by
  cases first with
  | nothing name => rfl
  | nextHop hop => cases second with
    | nextHop other => exact absurd rfl different
    | list name items => cases name <;> rfl
    | _ => rfl
  | announce value => cases second with
    | announce other => exact absurd rfl different
    | list name items => cases name <;> rfl
    | _ => rfl
  | list name items => cases second with
    | list other others => cases name <;> cases other <;> first | rfl | exact absurd rfl different
    | _ => cases name <;> rfl

end Change

theorem NLRI.assign_cases (ip : Ipaddress) (kwarg : Kwarg) :
    (∃ error, ∀ nlri : NLRI ip, nlri.assign kwarg = .error error) ∨
    ∃ change : Change ip, change.name = kwarg.name ∧
      ∀ nlri : NLRI ip, nlri.assign kwarg = .ok (change.apply nlri) := by
  cases kwarg with
  | announce value => exact .inr ⟨.announce value, rfl, fun _ => rfl⟩
  | other name =>
      by_cases fixed : name.val ∈ Methods.readOnly
      · exact .inl ⟨_, fun _ => if_pos fixed⟩
      · exact .inr ⟨.nothing name.val, rfl, fun _ => if_neg fixed⟩
  | nextHop value =>
      by_cases isSelf : value = .str "self".toList
      · exact .inr ⟨.nextHop .self, rfl, fun _ => if_pos isSelf⟩
      · cases parsed : ip.address? value with
        | none => exact .inl ⟨_, fun _ => by
            simp only [NLRI.assign, if_neg isSelf, parsed]
            rfl⟩
        | some host => exact .inr ⟨.nextHop (.address host), rfl, fun _ => by
            simp only [NLRI.assign, if_neg isSelf, parsed, Change.apply]⟩
  | list name items =>
      cases built : bgpList name.check items with
      | error error => exact .inl ⟨error, fun _ => by simp only [NLRI.assign, built, Except.map]⟩
      | ok stored => exact .inr ⟨.list name stored, by cases name <;> rfl, fun _ => by
          simp only [NLRI.assign, built, Except.map, Change.apply]⟩

section Assign

variable {nlri after : NLRI ip} {kwarg other : Kwarg}

theorem NLRI.assign_again (assigned : nlri.assign kwarg = .ok after) : after.assign kwarg = .ok after := by
  rcases assign_cases ip kwarg with ⟨error, refused⟩ | ⟨change, _, made⟩
  · rw [refused] at assigned
    contradiction
  · rw [made, Except.ok.injEq] at assigned
    rw [made, ← assigned, change.apply_again]

/-- A keyword that has been assigned stays so when another one is. -/
theorem NLRI.assign_kept (different : kwarg.name ≠ other.name) (held : nlri.assign kwarg = .ok nlri)
    (assigned : nlri.assign other = .ok after) : after.assign kwarg = .ok after := by
  rcases assign_cases ip kwarg with ⟨error, refused⟩ | ⟨first, firstName, made⟩
  · rw [refused] at held
    contradiction
  rcases assign_cases ip other with ⟨error, refused⟩ | ⟨second, secondName, changed⟩
  · rw [refused] at assigned
    contradiction
  rw [made, Except.ok.injEq] at held
  rw [changed, Except.ok.injEq] at assigned
  rw [made, ← assigned, Change.apply_comm (by rwa [firstName, secondName]), held]

end Assign

section Setattrs

variable {state : State ip} {network : ip.Network} {nlri : NLRI ip}

theorem get?_store (state : State ip) (network : ip.Network) (nlri : NLRI ip) (output : List (Command ip)) :
    ({ state with nlri := state.nlri.set network nlri, output } : State ip).nlri.get? network = some nlri :=
  Dict.get?_set_self _ _ _

theorem setattrs_cons (found : state.nlri.get? network = some nlri) (kwarg : Kwarg) (rest : List Kwarg) :
    RIB.setattrs network (kwarg :: rest) state =
      match nlri.assign kwarg with
      | .error error => .error error state
      | .ok after =>
          if kwarg.tells nlri after then
            match after.route with
            | .error error => .error error { state with nlri := state.nlri.set network after }
            | .ok route => RIB.setattrs network rest
                { state with nlri := state.nlri.set network after, output := state.output ++ [after.command route] }
          else RIB.setattrs network rest { state with nlri := state.nlri.set network after } := by
  simp only [RIB.setattrs, Effect.bind_eq, RIB.onEntry, found, printing_setattr]
  cases nlri.assign kwarg with
  | error error => simp [Dict.set_of_get? found]
  | ok after =>
      by_cases told : kwarg.tells nlri after = true
      · simp only [told, if_true]
        cases after.route <;> rfl
      · simp only [if_neg told]

theorem accept_of_assign {after : NLRI ip} {kwarg : Kwarg} (assigned : nlri.assign kwarg = .ok after) :
    nlri.accept kwarg = if kwarg.tells nlri after then after.route.map fun _ => after else .ok after := by
  simp only [NLRI.accept, assigned, except_bind_ok]
  split
  · cases after.route <;> rfl
  · rfl

theorem setattrs_accept (found : state.nlri.get? network = some nlri) (kwargs : List Kwarg) :
    match kwargs.foldlM NLRI.accept nlri with
    | .ok last => ∃ after, RIB.setattrs network kwargs state = .ok () after ∧ after.nlri.get? network = some last
    | .error error => ∃ after, RIB.setattrs network kwargs state = .error error after := by
  induction kwargs generalizing state nlri with
  | nil => exact ⟨state, rfl, found⟩
  | cons kwarg rest ih =>
      rw [List.foldlM_cons, setattrs_cons found]
      cases assigned : nlri.assign kwarg with
      | error error =>
          simp only [NLRI.accept, assigned, except_bind_error]
          exact ⟨state, rfl⟩
      | ok after =>
          rw [accept_of_assign assigned]
          by_cases told : kwarg.tells nlri after = true
          · simp only [if_pos told]
            cases rendered : after.route with
            | error error => exact ⟨_, rfl⟩
            | ok route => exact ih (Dict.get?_set_self _ _ _)
          · simp only [if_neg told]
            exact ih (Dict.get?_set_self _ _ _)

/-- What stays in force whatever the remaining keywords are: the lines that were
printed, and the attributes that none of them names. -/
theorem setattrs_later (found : state.nlri.get? network = some nlri) (kwargs : List Kwarg) :
    state.output.length ≤ (final (RIB.setattrs network kwargs state)).output.length ∧
    ∀ kwarg : Kwarg, kwarg.name ∉ kwargs.map Kwarg.name → nlri.assign kwarg = .ok nlri →
      ∃ last, (final (RIB.setattrs network kwargs state)).nlri.get? network = some last ∧
        last.assign kwarg = .ok last := by
  induction kwargs generalizing state nlri with
  | nil => exact ⟨le_refl _, fun _ _ held => ⟨nlri, found, held⟩⟩
  | cons next rest ih =>
      rw [setattrs_cons found]
      cases assigned : nlri.assign next with
      | error error => exact ⟨le_refl _, fun _ _ held => ⟨nlri, found, held⟩⟩
      | ok after =>
          have kept (kwarg : Kwarg) (absent : kwarg.name ∉ (next :: rest).map Kwarg.name)
              (held : nlri.assign kwarg = .ok nlri) : after.assign kwarg = .ok after :=
            NLRI.assign_kept (fun same => absent (by simp [same])) held assigned
          have stored := get?_store state network after
          by_cases told : next.tells nlri after = true
          · simp only [if_pos told]
            cases rendered : after.route with
            | error error => exact ⟨le_refl _, fun kwarg absent held =>
                ⟨after, Dict.get?_set_self _ _ _, kept kwarg absent held⟩⟩
            | ok route =>
                obtain ⟨longer, later⟩ := ih (stored (state.output ++ [after.command route]))
                refine ⟨le_trans (by simp) longer, fun kwarg absent held => ?_⟩
                exact later kwarg (fun inside => absent (by simp [inside])) (kept kwarg absent held)
          · simp only [if_neg told]
            obtain ⟨longer, later⟩ := ih (stored state.output)
            refine ⟨longer, fun kwarg absent held => ?_⟩
            exact later kwarg (fun inside => absent (by simp [inside])) (kept kwarg absent held)

end Setattrs

section Restores

variable {σ α : Type} {state : σ}

/-- If a computation raised, it left everything as it was. -/
def Restores (state : σ) (result : EStateM.Result PyError σ α) : Prop :=
  ∀ error after, result = .error error after → after = state

theorem restores_ok (value : α) (after : σ) : Restores state (.ok value after) :=
  fun _ _ raised => by cases raised

theorem restores_error {error : PyError} {after : σ} :
    Restores state (.error error after : EStateM.Result PyError σ α) ↔ after = state :=
  ⟨fun restores => restores error after rfl, fun same _ _ raised => by cases raised; exact same⟩

end Restores

section Atomicity

variable {state : State ip} {network : ip.Network} {nlri : NLRI ip} {kwarg : Kwarg} {rest : List Kwarg}

/-- Once an accepted keyword has left a trace, the remaining ones have to be accepted. -/
theorem restores_traced (found : state.nlri.get? network = some nlri) (busy : ¬ nlri.Idle kwarg)
    {next : NLRI ip} (accepted : nlri.accept kwarg = .ok next)
    (traced : final (RIB.setattrs network (kwarg :: rest) state) ≠ state) :
    Restores state (RIB.setattrs network (kwarg :: rest) state) ↔ Atomic nlri (kwarg :: rest) := by
  have outcome := setattrs_accept found (kwarg :: rest)
  cases folded : (kwarg :: rest).foldlM NLRI.accept nlri with
  | ok last =>
      simp only [folded] at outcome
      obtain ⟨after, done, _⟩ := outcome
      rw [done]
      exact iff_of_true (restores_ok () after) (.inr (.inr ⟨last, folded⟩))
  | error error =>
      simp only [folded] at outcome
      obtain ⟨after, raised⟩ := outcome
      rw [raised, restores_error]
      rw [raised, final_error] at traced
      refine iff_of_false traced fun atomic => ?_
      rcases atomic with ⟨idle, _⟩ | ⟨refused, _⟩ | ⟨last, done⟩
      · exact busy idle
      · exact refused next accepted
      · rw [folded] at done
        contradiction

/-- An update that raises leaves the RIB and the printed lines alone exactly if it is atomic. -/
theorem setattrs_atomic (found : state.nlri.get? network = some nlri) {kwargs : List Kwarg}
    (distinct : (kwargs.map Kwarg.name).Nodup) :
    Restores state (RIB.setattrs network kwargs state) ↔ Atomic nlri kwargs := by
  induction kwargs generalizing state with
  | nil => exact iff_of_true (restores_ok () state) trivial
  | cons kwarg rest ih =>
      obtain ⟨fresh, distinctRest⟩ := List.nodup_cons.mp distinct
      have step := setattrs_cons found kwarg rest
      cases assigned : nlri.assign kwarg with
      | error error =>
          simp only [assigned] at step
          rw [step, restores_error]
          refine iff_of_true rfl (.inr (.inl ⟨fun after passes => ?_, fun after done => ?_⟩))
          · simp [NLRI.accept, assigned, except_bind_error] at passes
          · rw [assigned] at done
            contradiction
      | ok after =>
          simp only [assigned] at step
          have accept := accept_of_assign assigned
          by_cases told : kwarg.tells nlri after = true
          · rw [if_pos told] at step accept
            have busy : ¬ nlri.Idle kwarg := fun idle => by
              obtain rfl : nlri = after := by simpa [idle.1] using assigned
              simp [idle.2] at told
            cases rendered : after.route with
            | error error =>
                simp only [rendered] at step accept
                have fails (passed : NLRI ip) : nlri.accept kwarg ≠ .ok passed := by simp [accept, Except.map]
                rw [step, restores_error]
                constructor
                · intro same
                  have atNetwork := congrArg (fun last => last.nlri.get? network) same
                  obtain rfl : after = nlri := by simpa [found] using atNetwork
                  exact .inr (.inl ⟨fails, fun _ done => by simpa [assigned] using done.symm⟩)
                · intro atomic
                  rcases atomic with ⟨idle, _⟩ | ⟨_, refused⟩ | ⟨last, done⟩
                  · exact absurd idle busy
                  · rw [refused after assigned, Dict.set_of_get? found]
                  · simp [List.foldlM_cons, accept, Except.map, except_bind_error] at done
            | ok route =>
                simp only [rendered] at step accept
                -- A line was printed, and lines stay.
                refine restores_traced found busy accept fun same => ?_
                have longer := (setattrs_later (get?_store state network after
                  (state.output ++ [after.command route])) rest).1
                rw [← step, same] at longer
                simp only [List.length_append, List.length_singleton] at longer
                omega
          · rw [if_neg told] at step accept
            by_cases same : after = nlri
            · subst same
              have idle : after.Idle kwarg := ⟨assigned, by simpa using told⟩
              rw [step, Dict.set_of_get? found, ih found distinctRest]
              refine ⟨fun atomic => .inl ⟨idle, atomic⟩, fun atomic => ?_⟩
              rcases atomic with ⟨_, atomic⟩ | ⟨refused, _⟩ | ⟨last, done⟩
              · exact atomic
              · exact absurd accept (refused after)
              · rw [List.foldlM_cons, accept] at done
                cases rest with
                | nil => trivial
                | cons next others => exact .inr (.inr ⟨last, done⟩)
            · -- No other keyword gives the attribute its old value again.
              refine restores_traced found (fun idle => same (by simpa [idle.1] using assigned.symm)) accept
                fun unchanged => ?_
              obtain ⟨entry, stored, held⟩ := (setattrs_later (get?_store state network after state.output) rest).2
                kwarg fresh (NLRI.assign_again assigned)
              rw [← step, unchanged, found] at stored
              cases stored
              exact same (by simpa [assigned] using held)

theorem assign_nextHop_announce {value : Value} {after : NLRI ip}
    (assigned : nlri.assign (.nextHop value) = .ok after) : after.announce = nlri.announce := by
  simp only [NLRI.assign] at assigned
  split at assigned
  · cases assigned
    rfl
  · split at assigned
    · contradiction
    · cases assigned
      rfl

theorem printing_new (network : ip.Network) (kwargs : List Kwarg) (output : List (Command ip)) :
    (printing ip).new (some network) kwargs output =
      match NLRI.construct network kwargs with
      | .error error => .error error output
      | .ok nlri =>
          if nlri.announce then
            match nlri.route with
            | .error error => .error error output
            | .ok route => .ok nlri (output ++ [.announce route])
          else .ok nlri output := by
  unfold Methods.new NLRI.construct
  cases foreign : kwargs.any Kwarg.isOther with
  | true => rfl
  | false =>
  simp only [Bool.false_eq_true, if_false, Effect.bind_eq]
  cases bgpList communityListCheck (Kwarg.listIn kwargs .community) with
  | error error => rfl
  | ok community =>
  cases bgpList asListCheck (Kwarg.listIn kwargs .asSeq) with
  | error error => rfl
  | ok asSeq =>
  cases bgpList asListCheck (Kwarg.listIn kwargs .asSet) with
  | error error => rfl
  | ok asSet =>
  generalize (kwargs.findSome? Kwarg.nextHop?).getD (.str "self".toList) = hop
  generalize (kwargs.findSome? Kwarg.announce?).getD true = flag
  have hopSet := printing_setattr ⟨false, .self, community, asSeq, asSet, network⟩ output (.nextHop hop)
  simp only [Methods.setattr] at hopSet
  simp only [Effect.ofExcept_ok, Object.during, Effect.bind_eq, hopSet, except_bind_ok]
  cases assigned : (⟨false, .self, community, asSeq, asSet, network⟩ : NLRI ip).assign (.nextHop hop) with
  | error error => rfl
  | ok nlri =>
      have quiet : nlri.announce = false := assign_nextHop_announce assigned
      have flagSet := printing_setattr nlri output (.announce flag)
      simp only [Methods.setattr, NLRI.assign, Kwarg.tells, quiet] at flagSet
      simp only [Kwarg.tells, quiet, Bool.false_and, Bool.false_eq_true, if_false, flagSet, except_bind_ok, pure,
        Except.pure]
      cases flag with
      | false => rfl
      | true =>
          cases rendered : ({ nlri with announce := true } : NLRI ip).route with
          | error error => simp
          | ok route => simp [NLRI.command, EStateM.pure]

variable {text : Text} {kwargs : List Kwarg}

theorem add_unparsed (malformed : ip.network? text = none) :
    RIB.add text kwargs state =
      .error (.valueError "does not appear to be an IPv4 or IPv6 network".toList) state := by
  simp [RIB.add, malformed]

theorem add_present (parsed : ip.network? text = some network) (found : state.nlri.get? network = some nlri) :
    RIB.add text kwargs state = RIB.setattrs network kwargs state := by
  have present : network ∈ state.nlri.keys := (Dict.mem_keys_iff _ _).mpr (by simp [found])
  simp only [RIB.add, parsed, Effect.bind_eq, Effect.get_apply, if_pos present]

theorem add_absent (parsed : ip.network? text = some network) (missing : state.nlri.get? network = none) :
    RIB.add text kwargs state =
      match NLRI.construct network kwargs with
      | .error error => .error error state
      | .ok nlri =>
          let stored := state.nlri.set nlri.routePrefix nlri
          if nlri.announce then
            match nlri.route with
            | .error error => .error error state
            | .ok route => .ok () { state with nlri := stored, output := state.output ++ [.announce route] }
          else .ok () { state with nlri := stored } := by
  have absent : network ∉ state.nlri.keys := by simp [Dict.mem_keys_iff, missing]
  simp only [RIB.add, parsed, Effect.bind_eq, Effect.get_apply, if_neg absent, Effect.within, printing_new]
  cases NLRI.construct network kwargs with
  | error error => rfl
  | ok nlri =>
      cases announced : nlri.announce with
      | false => simp [announced]
      | true => cases rendered : nlri.route <;> simp [announced, rendered]

/-- `RIB.add` changes nothing when it raises, exactly if the prefix is new or the
update of its entry is atomic. -/
theorem add_restores_iff (state : State ip) (text : Text) {kwargs : List Kwarg}
    (distinct : (kwargs.map Kwarg.name).Nodup) :
    (∀ error after, RIB.add text kwargs state = .error error after → after = state) ↔
      ∀ network nlri, ip.network? text = some network → state.nlri.get? network = some nlri → Atomic nlri kwargs := by
  change Restores state (RIB.add text kwargs state) ↔ _
  cases parsed : ip.network? text with
  | none =>
      rw [add_unparsed parsed]
      exact iff_of_true (restores_error.mpr rfl) (by simp)
  | some network =>
      cases found : state.nlri.get? network with
      | some nlri =>
          rw [add_present parsed found, setattrs_atomic found distinct]
          constructor
          · intro atomic other entry same stored
            cases same
            rw [found] at stored
            cases stored
            exact atomic
          · intro all
            exact all network nlri rfl found
      | none =>
          have vacuous : ∀ other nlri, some network = some other → state.nlri.get? other = some nlri →
              Atomic nlri kwargs := by
            intro other entry same stored
            cases same
            rw [found] at stored
            contradiction
          refine iff_of_true ?_ vacuous
          rw [add_absent parsed found]
          cases NLRI.construct network kwargs with
          | error error => exact restores_error.mpr rfl
          | ok nlri =>
              cases announced : nlri.announce with
              | false => simpa [announced] using restores_ok _ _
              | true =>
                  cases rendered : nlri.route with
                  | error error => simpa [announced, rendered] using restores_error.mpr rfl
                  | ok route => simpa [announced, rendered] using restores_ok _ _

end Atomicity

section Example

def announcedState : State ipv4 := run [.add "192.0.2.0/24".toList []] (State.empty ipv4)

def partialUpdate : Effect (State ipv4) Unit :=
  RIB.add "192.0.2.0/24".toList [.list .asSeq [.str "65002".toList], .list .community [.str "1:99999".toList]]

/-- The first keyword is announced before the second one is found to be out of range. -/
theorem partial_update_stays :
    ¬ ∀ error after, partialUpdate announcedState = .error error after → after = announcedState := by
  intro restores
  have raises : returned (partialUpdate announcedState) = false := by decide +kernel
  have printed : (final (partialUpdate announcedState)).output.length ≠ announcedState.output.length := by
    decide +kernel
  cases outcome : partialUpdate announcedState with
  | ok _ after => simp [outcome] at raises
  | error error after =>
      rw [outcome, restores error after outcome] at printed
      exact printed rfl

theorem add_restores_iff_example :
    (∀ error after, RIB.add "192.0.2.0/24".toList
      [.list .community [.str "1:99999".toList], .list .asSeq [.str "65002".toList]] announcedState =
        .error error after → after = announcedState) ↔
    ∀ network nlri, ipv4.network? "192.0.2.0/24".toList = some network →
      announcedState.nlri.get? network = some nlri →
      Atomic nlri [.list .community [.str "1:99999".toList], .list .asSeq [.str "65002".toList]] :=
  add_restores_iff announcedState "192.0.2.0/24".toList (by decide)

end Example

end ActiveBgp.Rib
