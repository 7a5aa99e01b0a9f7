import ActiveBgp.Rib.Updates
import ActiveBgp.Data.Run

namespace ActiveBgp.Rib

open ActiveBgp.Python ActiveBgp.Data

variable {ip : Ipaddress}

def NLRI.Printable (nlri : NLRI ip) : Prop := ∀ value ∈ nlri.community, ∃ text, value = .str text

/-- Both AS lists hold numbers in range. -/
structure NLRI.Numbered (nlri : NLRI ip) : Prop where
  asSeq : ∀ value ∈ nlri.asSeq, value.IsAsn
  asSet : ∀ value ∈ nlri.asSet, value.IsAsn

section Entry

variable {nlri after : NLRI ip} {kwarg : Kwarg} {network : ip.Network} {kwargs : List Kwarg}

theorem joined_error {items : List Value} (bad : ¬ ∀ value ∈ items, ∃ text, value = .str text) :
    ∃ error, items.mapM Value.joined = .error error := by
  induction items with
  | nil => exact absurd (by simp) bad
  | cons first rest ih =>
      cases first with
      | str text =>
          obtain ⟨error, raised⟩ := ih fun all => bad (by simpa using all)
          exact ⟨error, by simp [List.mapM_cons, Value.joined, raised, bind, Except.bind]⟩
      | int number => exact ⟨_, rfl⟩
      | none => exact ⟨_, rfl⟩

theorem NLRI.Numbered.route (numbered : nlri.Numbered) (printable : nlri.Printable) :
    ∃ route, nlri.route = .ok route ∧ route.routePrefix = nlri.routePrefix := by
  have texts : ∃ community, nlri.community.mapM Value.joined = .ok community :=
    mapM_ok_iff.mpr fun value member => by
      obtain ⟨text, rfl⟩ := printable value member
      exact ⟨text, rfl⟩
  obtain ⟨community, communityDone⟩ := texts
  have numbers {items : List Value} (asns : ∀ value ∈ items, value.IsAsn) :
      ∃ values, items.mapM Value.toInt = .ok values :=
    mapM_ok_iff.mpr fun value member => by
      obtain ⟨asn, rfl, _⟩ := asns value member
      exact ⟨asn, rfl⟩
  obtain ⟨asSeq, asSeqDone⟩ := numbers numbered.asSeq
  obtain ⟨asSet, asSetDone⟩ := numbers numbered.asSet
  exact ⟨_, by simp only [NLRI.route, communityDone, asSeqDone, asSetDone, except_bind_ok]; rfl, rfl⟩

theorem route_error (bad : ¬ nlri.Printable) : ∃ error, nlri.route = .error error := by
  obtain ⟨error, raised⟩ := joined_error bad
  exact ⟨error, by simp [NLRI.route, raised, except_bind_error]⟩

/-- A keyword changes the announce flag or other attributes, not both. -/
theorem NLRI.assign_flag (assigned : nlri.assign kwarg = .ok after) :
    after.routePrefix = nlri.routePrefix ∧
      (after.announce = nlri.announce ∨ after = { nlri with announce := after.announce }) := by
  rcases assign_cases ip kwarg with ⟨error, refused⟩ | ⟨change, _, made⟩
  · rw [refused] at assigned
    contradiction
  · rw [made, Except.ok.injEq] at assigned
    subst assigned
    cases change with
    | list name items => cases name <;> exact ⟨rfl, .inl rfl⟩
    | announce value => exact ⟨rfl, .inr rfl⟩
    | nextHop hop => exact ⟨rfl, .inl rfl⟩
    | nothing name => exact ⟨rfl, .inl rfl⟩

theorem NLRI.Numbered.assign (numbered : nlri.Numbered) (assigned : nlri.assign kwarg = .ok after) :
    after.Numbered := by
  cases kwarg with
  | announce value =>
      cases assigned
      exact ⟨numbered.asSeq, numbered.asSet⟩
  | other name =>
      simp only [NLRI.assign] at assigned
      split at assigned
      · contradiction
      · cases assigned
        exact numbered
  | nextHop value =>
      simp only [NLRI.assign] at assigned
      split at assigned
      · cases assigned
        exact ⟨numbered.asSeq, numbered.asSet⟩
      · split at assigned
        · contradiction
        · cases assigned
          exact ⟨numbered.asSeq, numbered.asSet⟩
  | list name items =>
      obtain ⟨stored, built, rfl⟩ := except_map_eq_ok.mp assigned
      cases name with
      | community => exact ⟨numbered.asSeq, numbered.asSet⟩
      | asSeq => exact ⟨asList_forall built, numbered.asSet⟩
      | asSet => exact ⟨numbered.asSeq, asList_forall built⟩

theorem NLRI.assign_nextHop {value : Value} (assigned : nlri.assign (.nextHop value) = .ok after) :
    after = { nlri with nextHop := after.nextHop } := by
  simp only [NLRI.assign] at assigned
  split at assigned
  · cases assigned
    rfl
  · split at assigned
    · contradiction
    · cases assigned
      rfl

/-- An entry that nothing was told about is announced as before, with the same attributes. -/
theorem NLRI.assign_silent (assigned : nlri.assign kwarg = .ok after) (silent : kwarg.tells nlri after = false) :
    after.announce = nlri.announce ∧ (after.announce = true → after = nlri) := by
  cases kwarg with
  | announce value =>
      cases assigned
      have same : nlri.announce = value := by
        simpa only [Kwarg.tells, ne_eq, decide_not, Bool.not_eq_false', decide_eq_true_eq] using silent
      exact ⟨same.symm, fun _ => by rw [← same]⟩
  | list name items =>
      have quiet : after.announce = false := silent
      refine ⟨?_, fun announced => by rw [quiet] at announced; contradiction⟩
      obtain ⟨stored, _, rfl⟩ := except_map_eq_ok.mp assigned
      cases name <;> rfl
  | other name =>
      simp only [NLRI.assign] at assigned
      split at assigned
      · contradiction
      · cases assigned
        exact ⟨rfl, fun _ => rfl⟩
  | nextHop value =>
      have only := NLRI.assign_nextHop assigned
      refine ⟨by rw [only], fun announced => ?_⟩
      have same : nlri.nextHop = after.nextHop := by simpa [Kwarg.tells, announced] using silent
      rw [only, ← same]

theorem tells_quiet (before : nlri.announce = false) (now : after.announce = false) :
    kwarg.tells nlri after = false := by
  cases kwarg <;> simp [Kwarg.tells, before, now]

theorem construct_facts (built : NLRI.construct network kwargs = .ok nlri) :
    nlri.Numbered ∧ nlri.routePrefix = network := by
  unfold NLRI.construct at built
  cases foreign : kwargs.any Kwarg.isOther with
  | true => simp [foreign, except_throw, except_bind_error] at built
  | false =>
  simp only [foreign, Bool.false_eq_true, if_false] at built
  cases communityBuilt : bgpList communityListCheck (Kwarg.listIn kwargs .community) with
  | error error => simp [communityBuilt, except_bind_error, pure, Except.pure] at built
  | ok community =>
  cases asSeqBuilt : bgpList asListCheck (Kwarg.listIn kwargs .asSeq) with
  | error error => simp [communityBuilt, asSeqBuilt, except_bind_error, pure, Except.pure, except_bind_ok] at built
  | ok asSeq =>
  cases asSetBuilt : bgpList asListCheck (Kwarg.listIn kwargs .asSet) with
  | error error =>
      simp [communityBuilt, asSeqBuilt, asSetBuilt, except_bind_error, pure, Except.pure, except_bind_ok] at built
  | ok asSet =>
  simp only [communityBuilt, asSeqBuilt, asSetBuilt, except_bind_ok] at built
  generalize (kwargs.findSome? Kwarg.nextHop?).getD (.str "self".toList) = hop at built
  cases assigned : (⟨false, .self, community, asSeq, asSet, network⟩ : NLRI ip).assign (.nextHop hop) with
  | error error => simp [assigned, except_bind_error, pure, Except.pure] at built
  | ok hopped =>
      have numbered : hopped.Numbered :=
        NLRI.Numbered.assign ⟨asList_forall asSeqBuilt, asList_forall asSetBuilt⟩ assigned
      have same := (NLRI.assign_flag assigned).1
      simp only [assigned, except_bind_ok, pure, Except.pure, Except.ok.injEq] at built
      subst built
      exact ⟨⟨numbered.asSeq, numbered.asSet⟩, same⟩

end Entry

/-- A present prefix can be removed, and the peer forgets it. -/
def Removable (state : State ip) : Prop :=
  ∀ text network, ip.network? text = some network → network ∈ state.nlri.keys →
    ∃ after, RIB.remove text state = .ok () after ∧ network ∉ after.nlri.keys ∧ peerTable after.output network = none

/-- No accepted keyword leaves the entry announced with a community that is not a string. -/
def NLRI.Harmless (nlri : NLRI ip) : List Kwarg → Prop
  | [] => True
  | kwarg :: rest => ∀ after, nlri.assign kwarg = .ok after →
      (after.announce = true → after.Printable) ∧ after.Harmless rest

def Step.Harmless (state : State ip) : Step ip → Prop
  | .add text kwargs => ∀ network nlri, ip.network? text = some network → state.nlri.get? network = some nlri →
      nlri.Harmless kwargs
  | _ => True

/-- The calls of a client of the RIB, and the finalisers that run in between. -/
def ribCall (state : State ip) : Step ip → Option (State ip)
  | .setattr _ _ => none
  | .listOp _ _ _ => none
  | step => some (step.run state)

/-- An entry that is not announced is unknown to the peer. -/
structure Entered (network : ip.Network) (nlri : NLRI ip) (output : List (Command ip)) : Prop where
  numbered : nlri.Numbered
  routePrefix : nlri.routePrefix = network
  quiet : nlri.announce = false → peerTable output network = none

/-- Every announced entry can be printed, and the peer holds no other prefixes. -/
structure Tracked (state : State ip) : Prop where
  entered : ∀ network nlri, state.nlri.get? network = some nlri → Entered network nlri state.output
  printable : ∀ network nlri, state.nlri.get? network = some nlri → nlri.announce = true → nlri.Printable
  absent : ∀ network, state.nlri.get? network = none → peerTable state.output network = none
  detached : ∀ nlri ∈ state.detached, nlri.announce = false

/-- An announced entry that cannot be printed, and so cannot be removed. -/
def Stuck (state : State ip) : Prop :=
  ∃ network nlri, state.nlri.get? network = some nlri ∧ nlri.announce = true ∧ ¬ nlri.Printable

section States

variable {state : State ip} {network : ip.Network} {nlri after : NLRI ip} {kwarg : Kwarg} {text : Text}

theorem Tracked.store (tracked : Tracked state) {output : List (Command ip)} (entered : Entered network nlri output)
    (printable : nlri.announce = true → nlri.Printable)
    (others : ∀ key, key ≠ network → peerTable output key = peerTable state.output key) :
    Tracked { state with nlri := state.nlri.set network nlri, output } where
  entered key entry found := by
    rw [Dict.get?_set] at found
    split at found
    · rename_i same
      cases found
      exact same ▸ entered
    · rename_i different
      obtain ⟨numbered, same, quiet⟩ := tracked.entered key entry found
      exact ⟨numbered, same, fun flag => by rw [others key (Ne.symm different)]; exact quiet flag⟩
  printable key entry found := by
    rw [Dict.get?_set] at found
    split at found
    · cases found
      exact printable
    · exact tracked.printable key entry found
  absent key missing := by
    rw [Dict.get?_set] at missing
    split at missing
    · contradiction
    · rename_i different
      rw [others key (Ne.symm different)]
      exact tracked.absent key missing
  detached := tracked.detached

theorem peerTable_command (output : List (Command ip)) (route : Route ip) (key : ip.Network) :
    peerTable (output ++ [nlri.command route]) key =
      if key = route.routePrefix then (if nlri.announce then some route else none) else peerTable output key := by
  unfold NLRI.command
  split
  · exact peerTable_announce output route key
  · exact peerTable_withdraw output route key

theorem Entered.command (output : List (Command ip)) (numbered : nlri.Numbered) (same : nlri.routePrefix = network)
    {route : Route ip} (atPrefix : route.routePrefix = nlri.routePrefix) :
    Entered network nlri (output ++ [nlri.command route]) :=
  ⟨numbered, same, fun quiet => by simp [peerTable_command, atPrefix, same, quiet]⟩

/-- A harmless update keeps the RIB tracked, and any other leaves an entry that is stuck. -/
theorem Tracked.setattrs (tracked : Tracked state) (found : state.nlri.get? network = some nlri)
    (kwargs : List Kwarg) :
    (nlri.Harmless kwargs ∧ Tracked (final (RIB.setattrs network kwargs state))) ∨
    (¬ nlri.Harmless kwargs ∧ Stuck (final (RIB.setattrs network kwargs state))) := by
  induction kwargs generalizing state nlri with
  | nil => exact .inl ⟨trivial, tracked⟩
  | cons kwarg rest ih =>
      obtain ⟨numbered, same, quiet⟩ := tracked.entered network nlri found
      have printable := tracked.printable network nlri found
      rw [setattrs_cons found]
      cases assigned : nlri.assign kwarg with
      | error error => exact .inl ⟨fun after done => by rw [assigned] at done; contradiction, tracked⟩
      | ok after =>
          have now := numbered.assign assigned
          obtain ⟨kept, flag⟩ := NLRI.assign_flag assigned
          have harmless : nlri.Harmless (kwarg :: rest) ↔
              (after.announce = true → after.Printable) ∧ after.Harmless rest := by
            simp [NLRI.Harmless, assigned]
          rw [harmless]
          by_cases told : kwarg.tells nlri after = true
          · simp only [if_pos told]
            by_cases prints : after.Printable
            · obtain ⟨route, rendered, atPrefix⟩ := now.route prints
              simp only [rendered]
              have stored := tracked.store (Entered.command state.output now (kept.trans same) atPrefix) (fun _ => prints) fun key different => by
                  rw [peerTable_command, atPrefix, kept.trans same, if_neg different]
              simpa [prints] using ih stored (Dict.get?_set_self _ _ _)
            · obtain ⟨error, raised⟩ := route_error prints
              simp only [raised]
              have announced : after.announce = true := by
                by_contra flagged
                have lowered : after.announce = false := by simpa using flagged
                cases before : nlri.announce with
                | false => simp [tells_quiet before lowered] at told
                | true =>
                    rcases flag with same | only
                    · rw [same, before] at lowered
                      contradiction
                    · exact prints fun value member => printable before value (by rw [only] at member; exact member)
              exact .inr ⟨fun both => prints (both.1 announced), network, after, Dict.get?_set_self _ _ _,
                announced, prints⟩
          · simp only [if_neg told]
            obtain ⟨unchanged, unseen⟩ := NLRI.assign_silent assigned (by simpa using told)
            have prints : after.announce = true → after.Printable := fun announced value member =>
              printable (unchanged ▸ announced) value (unseen announced ▸ member)
            have entered : Entered network after state.output :=
              ⟨now, kept.trans same, fun flag => quiet (unchanged ▸ flag)⟩
            have stored := tracked.store entered prints fun _ _ => rfl
            simpa only [and_iff_right prints] using ih stored (Dict.get?_set_self _ _ _)

theorem Tracked.add (tracked : Tracked state) (text : Text) (kwargs : List Kwarg) :
    ((Step.add text kwargs : Step ip).Harmless state ∧ Tracked (final (RIB.add text kwargs state))) ∨
    (¬ (Step.add text kwargs : Step ip).Harmless state ∧ Stuck (final (RIB.add text kwargs state))) := by
  cases parsed : ip.network? text with
  | none => exact .inl ⟨fun _ _ other => by rw [parsed] at other; contradiction, by rwa [add_unparsed parsed]⟩
  | some network =>
      cases found : state.nlri.get? network with
      | some nlri =>
          have harmless : (Step.add text kwargs : Step ip).Harmless state ↔ nlri.Harmless kwargs := by
            constructor
            · intro all
              exact all network nlri parsed found
            · intro one other entry same stored
              rw [parsed] at same
              cases same
              rw [found] at stored
              cases stored
              exact one
          rw [harmless, add_present parsed found]
          exact tracked.setattrs found kwargs
      | none =>
          refine .inl ⟨fun other entry same stored => ?_, ?_⟩
          · rw [parsed] at same
            cases same
            rw [found] at stored
            contradiction
          rw [add_absent parsed found]
          cases built : NLRI.construct network kwargs with
          | error error => exact tracked
          | ok nlri =>
              obtain ⟨numbered, same⟩ := construct_facts built
              simp only [same]
              cases announced : nlri.announce with
              | false =>
                  have entered : Entered network nlri state.output :=
                    ⟨numbered, same, fun _ => tracked.absent network found⟩
                  exact tracked.store entered (by simp [announced]) fun _ _ => rfl
              | true =>
                  by_cases prints : nlri.Printable
                  · obtain ⟨route, rendered, atPrefix⟩ := numbered.route prints
                    have command : nlri.command route = .announce route := by simp [NLRI.command, announced]
                    have stored := tracked.store (Entered.command state.output numbered same atPrefix) (fun _ => prints) fun key different => by
                        rw [peerTable_command, atPrefix, same, if_neg different]
                    simpa [rendered, command] using stored
                  · obtain ⟨error, raised⟩ := route_error prints
                    simpa [raised] using tracked

/-- What `RIB.remove` does to a prefix that is present. -/
theorem remove_present (parsed : ip.network? text = some network) (found : state.nlri.get? network = some nlri) :
    RIB.remove text state =
      if nlri.announce then
        match nlri.route with
        | .error error => .error error { state with nlri := state.nlri.set network { nlri with announce := false } }
        | .ok route => .ok () {
            nlri := (state.nlri.set network { nlri with announce := false }).erase network
            output := state.output ++ [.withdraw route]
            detached := state.detached ++ [{ nlri with announce := false }] }
      else .ok () { state with nlri := state.nlri.erase network, detached := state.detached ++ [nlri] } := by
  have present : network ∈ state.nlri.keys := (Dict.mem_keys_iff _ _).mpr (by simp [found])
  have lowered := printing_setattr nlri state.output (.announce false)
  simp only [Methods.setattr, NLRI.assign, Kwarg.tells] at lowered
  simp only [RIB.remove, parsed, Effect.bind_eq, Effect.get_apply, if_pos present, RIB.onEntry, found, lowered]
  by_cases announced : nlri.announce = true
  · have sameRoute : ({ nlri with announce := false } : NLRI ip).route = nlri.route := rfl
    simp only [announced, sameRoute]
    cases nlri.route <;> simp [NLRI.command]
  · have quiet : nlri.announce = false := by simpa using announced
    have same : ({ nlri with announce := false } : NLRI ip) = nlri := by rw [← quiet]
    simp [quiet, same, Dict.set_of_get? found, found]

theorem Tracked.erase (tracked : Tracked state) (found : state.nlri.get? network = some nlri)
    (quiet : nlri.announce = false) :
    Tracked { state with nlri := state.nlri.erase network, detached := state.detached ++ [nlri] } where
  entered key entry stored := by
    rw [Dict.get?_erase] at stored
    split at stored
    · contradiction
    · exact tracked.entered key entry stored
  printable key entry stored := by
    rw [Dict.get?_erase] at stored
    split at stored
    · contradiction
    · exact tracked.printable key entry stored
  absent key missing := by
    rw [Dict.get?_erase] at missing
    split at missing
    · rename_i atKey
      rw [← atKey]
      exact (tracked.entered network nlri found).quiet quiet
    · exact tracked.absent key missing
  detached entry member := by
    rcases List.mem_append.mp member with old | new
    · exact tracked.detached entry old
    · rw [List.mem_singleton.mp new]
      exact quiet

theorem Tracked.remove (tracked : Tracked state) (parsed : ip.network? text = some network)
    (found : state.nlri.get? network = some nlri) :
    ∃ after, RIB.remove text state = .ok () after ∧ Tracked after ∧ after.nlri.get? network = none := by
  obtain ⟨numbered, same, quiet⟩ := tracked.entered network nlri found
  rw [remove_present parsed found]
  cases announced : nlri.announce with
  | false => exact ⟨_, rfl, tracked.erase found announced, by simp [Dict.get?_erase]⟩
  | true =>
      have prints := tracked.printable network nlri found announced
      obtain ⟨route, rendered, atPrefix⟩ := numbered.route prints
      have entered : Entered network { nlri with announce := false } (state.output ++ [.withdraw route]) :=
        ⟨⟨numbered.asSeq, numbered.asSet⟩, same, fun _ => by simp [peerTable_withdraw, atPrefix, same]⟩
      have lowered := tracked.store entered (fun _ => prints) fun key different => by
        rw [peerTable_withdraw, atPrefix, same, if_neg different]
      simp only [rendered, if_true]
      exact ⟨_, rfl, lowered.erase (Dict.get?_set_self _ _ _) rfl, by simp [Dict.get?_erase]⟩

theorem Tracked.removable (tracked : Tracked state) : Removable state := by
  intro text network parsed present
  obtain ⟨nlri, found⟩ := Option.isSome_iff_exists.mp ((Dict.mem_keys_iff _ _).mp present)
  obtain ⟨after, done, still, gone⟩ := tracked.remove parsed found
  exact ⟨after, done, by simp [Dict.mem_keys_iff, gone], still.absent network gone⟩

theorem Stuck.not_removable (stuck : Stuck state) : ¬ Removable state := by
  obtain ⟨network, nlri, found, announced, unprintable⟩ := stuck
  intro removable
  have present : network ∈ state.nlri.keys := (Dict.mem_keys_iff _ _).mpr (by simp [found])
  have parsed : ip.network? (ip.networkText network) = some network := ip.network?_print network
  obtain ⟨after, done, _⟩ := removable (ip.networkText network) network parsed present
  obtain ⟨error, raised⟩ := route_error unprintable
  rw [remove_present parsed found, announced, raised] at done
  cases done

theorem Tracked.finalise (tracked : Tracked state) (index : Nat) : Tracked (final (RIB.finalise index state)) := by
  unfold RIB.finalise
  cases found : state.detached[index]? with
  | none => exact tracked
  | some nlri =>
      have quiet := tracked.detached nlri (List.mem_of_getElem? found)
      have nothing : (printing ip).setAnnounce false ⟨nlri, state.output⟩ = .ok () ⟨nlri, state.output⟩ := by
        simp [Methods.setAnnounce, Effect.bind_eq, quiet]
      simp only [nothing, final_ok]
      exact ⟨tracked.entered, tracked.printable, tracked.absent,
        fun entry member => tracked.detached entry (List.mem_of_mem_eraseIdx member)⟩

/-- A harmless call keeps the RIB tracked, and any other leaves an entry that is stuck. -/
theorem Tracked.call (tracked : Tracked state) {step : Step ip} {next : State ip}
    (done : ribCall state step = some next) :
    (step.Harmless state ∧ Tracked next) ∨ (¬ step.Harmless state ∧ Stuck next) := by
  cases step with
  | setattr network kwarg => contradiction
  | listOp network name op => contradiction
  | add text kwargs =>
      cases done
      exact tracked.add text kwargs
  | finalise index =>
      cases done
      exact .inl ⟨trivial, tracked.finalise index⟩
  | remove text =>
      cases done
      refine .inl ⟨trivial, ?_⟩
      change Tracked (final (RIB.remove text state))
      cases parsed : ip.network? text with
      | none => simpa [RIB.remove, parsed] using tracked
      | some network =>
          cases found : state.nlri.get? network with
          | none =>
              have absent : network ∉ state.nlri.keys := by simp [Dict.mem_keys_iff, found]
              simpa [RIB.remove, parsed, Effect.bind_eq, absent] using tracked
          | some nlri =>
              obtain ⟨after, removed, still, _⟩ := tracked.remove parsed found
              rw [removed]
              exact still

theorem tracked_empty : Tracked (State.empty ip) :=
  ⟨fun _ _ found => by simp [State.empty] at found, fun _ _ found => by simp [State.empty] at found,
    fun _ _ => rfl, fun _ member => by simp [State.empty] at member⟩

end States

/-- Every prefix can be taken back at every point of a run exactly if its calls are harmless. -/
theorem removable_throughout_iff {history : List (State ip × Step ip)} {last : State ip}
    (run : Run ribCall (State.empty ip) history last) :
    Throughout Removable history last ↔ ∀ moment ∈ history, moment.2.Harmless moment.1 := by
  constructor
  · intro all
    suffices (∀ moment ∈ history, moment.2.Harmless moment.1) ∧ Tracked last from this.1
    induction run with
    | nil => exact ⟨by simp, tracked_empty⟩
    | snoc earlier step done ih =>
        obtain ⟨harmless, tracked⟩ := ih all.of_snoc
        rcases tracked.call done with ⟨now, still⟩ | ⟨_, stuck⟩
        · refine ⟨fun moment member => ?_, still⟩
          rcases List.mem_append.mp member with old | new
          · exact harmless moment old
          · rw [List.mem_singleton.mp new]
            exact now
        · exact absurd all.2 stuck.not_removable
  · intro harmless
    have preserved (state : State ip) (step : Step ip) (next : State ip) (tracked : Tracked state)
        (allowed : step.Harmless state) (done : ribCall state step = some next) : Tracked next :=
      (tracked.call done).elim And.right fun other => absurd allowed other.1
    exact (run.invariant tracked_empty preserved harmless).imp fun _ => Tracked.removable

section Example

def exampleNetwork : ipv4.Network := Ipv4.maskNat 3221225984 24

/-- A community without a colon is stored as a number. -/
def numberedCommunity : List (Step ipv4) :=
  [.add "192.0.2.0/24".toList [], .add "192.0.2.0/24".toList [.list .community [.str "65536".toList]]]

theorem unprintable_route_stays : ∃ (history : List (State ipv4 × Step ipv4)) (last : State ipv4),
    Run ribCall (State.empty ipv4) history last ∧ history.map Prod.snd = numberedCommunity ∧ ¬ Removable last := by
  have raises : (numberedCommunity.foldlM ribCall (State.empty ipv4)).any (fun last =>
      decide (exampleNetwork ∈ last.nlri.keys) &&
        !returned (RIB.remove "192.0.2.0/24".toList last)) = true := by decide +kernel
  obtain ⟨last, reached, fails⟩ := (Option.any_eq_true _ _).mp raises
  obtain ⟨history, run, events⟩ := Run.of_foldlM reached
  refine ⟨history, last, run, events, fun removable => ?_⟩
  rw [Bool.and_eq_true, decide_eq_true_eq] at fails
  have parsed : ipv4.network? "192.0.2.0/24".toList = some exampleNetwork := by decide +kernel
  obtain ⟨present, failed⟩ := fails
  obtain ⟨after, done, _⟩ := removable _ _ parsed present
  rw [done] at failed
  contradiction

theorem removable_throughout_iff_example : ∃ (history : List (State ipv4 × Step ipv4)) (last : State ipv4),
    history.map Prod.snd = numberedCommunity ++ [.remove "192.0.2.0/24".toList] ∧
    (Throughout Removable history last ↔ ∀ moment ∈ history, moment.2.Harmless moment.1) := by
  obtain ⟨last, reached⟩ : ∃ last, (numberedCommunity ++ [Step.remove "192.0.2.0/24".toList]).foldlM ribCall
      (State.empty ipv4) = some last := ⟨_, rfl⟩
  obtain ⟨history, run, events⟩ := Run.of_foldlM reached
  exact ⟨history, last, events, removable_throughout_iff run⟩

end Example

end ActiveBgp.Rib
