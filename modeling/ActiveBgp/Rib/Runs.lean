import ActiveBgp.Rib.Mirror
import ActiveBgp.Rib.Ipv4

namespace ActiveBgp.Rib

open ActiveBgp.Python ActiveBgp.Data

variable {ip : Ipaddress}

inductive Step (ip : Ipaddress) where
  | add (text : Text) (kwargs : List Kwarg)
  | remove (text : Text)
  | setattr (network : ip.Network) (kwarg : Kwarg)
  | listOp (network : ip.Network) (name : ListName) (op : ListOp)
  | finalise (index : Nat)

def Step.effect : Step ip → Effect (State ip) Unit
  | .add text kwargs => RIB.add text kwargs
  | .remove text => RIB.remove text
  | .setattr network kwarg => RIB.onEntry network ((printing ip).setattr kwarg)
  | .listOp network name op => RIB.onEntry network ((printing ip).listOp name op)
  | .finalise index => RIB.finalise index

/-- A step that raises is caught by the caller; its changes remain. -/
def Step.run (step : Step ip) (state : State ip) : State ip := final (step.effect state)

def run (steps : List (Step ip)) (state : State ip) : State ip :=
  steps.foldl (fun state step => step.run state) state

def Step.Given : Step ip → Prop
  | .add _ kwargs => ∀ kwarg ∈ kwargs, kwarg.Given
  | .setattr _ kwarg => kwarg.Given
  | .listOp _ name op => op.Given name
  | .remove _ => True
  | .finalise _ => True

theorem Mirrored.step {state : State ip} (mirrored : Mirrored state) {step : Step ip}
    (given : step.Given) : Mirrored (step.run state) := by
  cases step with
  | add text kwargs => exact mirrored.add text given
  | remove text => exact mirrored.remove text
  | setattr network kwarg => exact mirrored.setattr network given
  | listOp network name op =>
      exact mirrored.onEntry fun others _ shown => (printing_observer network others).listOp shown given
  | finalise index => exact mirrored.finalise index

theorem mirrored_run {steps : List (Step ip)} (given : ∀ step ∈ steps, step.Given) :
    Mirrored (run steps (State.empty ip)) := by
  have general (state : State ip) (mirrored : Mirrored state) : Mirrored (run steps state) := by
    induction steps generalizing state with
    | nil => exact mirrored
    | cons step rest ih =>
        exact ih (fun later member => given later (by simp [member])) _
          (mirrored.step (given step (by simp)))
  exact general _ mirrored_empty

/-- A route as a peer holds it, against the attributes of an entry. -/
structure Route.Describes (route : Route ip) (nlri : NLRI ip) : Prop where
  routePrefix : route.routePrefix = nlri.routePrefix
  nextHop : route.nextHop = nlri.nextHop
  community : route.community.map .str = nlri.community
  asSeq : route.asSeq.map .int = nlri.asSeq
  asSet : route.asSet.map .int = nlri.asSet

theorem NLRI.WellTyped.describes {nlri : NLRI ip} (typed : nlri.WellTyped) {route : Route ip}
    (done : nlri.route = .ok route) : route.Describes nlri := by
  have numbers {items : List Value} (asns : ∀ value ∈ items, value.IsAsn) {values : List Int}
      (converted : items.mapM Value.toInt = .ok values) : values.map .int = items :=
    map_of_mapM (fun value member number same => by
      obtain ⟨asn, rfl, _⟩ := asns value member
      cases same
      rfl) converted
  simp only [NLRI.route, bind, Except.bind, pure, Except.pure] at done
  split at done
  · contradiction
  rename_i community communityDone
  split at done
  · contradiction
  rename_i asSeq asSeqDone
  split at done
  · contradiction
  rename_i asSet asSetDone
  cases done
  exact ⟨rfl, rfl, map_of_mapM (fun value member text same => by
    obtain ⟨stored, rfl, _⟩ := typed.community value member
    cases same
    rfl) communityDone, numbers typed.asSeq asSeqDone, numbers typed.asSet asSetDone⟩

/-- At every point of a run the peer holds exactly the prefixes that are announced
in the RIB, with their current attributes, and each withdrawal that was printed
named a prefix that the peer held at that moment. -/
theorem peer_table_mirrors_rib {steps : List (Step ip)} (given : ∀ step ∈ steps, step.Given) :
    let state := run steps (State.empty ip)
    (∀ network, (∃ route, peerTable state.output network = some route) ↔
      ∃ nlri, state.nlri.get? network = some nlri ∧ nlri.announce = true) ∧
    (∀ network route, peerTable state.output network = some route →
      ∃ nlri, state.nlri.get? network = some nlri ∧ nlri.routePrefix = network ∧ route.Describes nlri) ∧
    ∀ before route after, state.output = before ++ .withdraw route :: after →
      (peerTable before route.routePrefix).isSome = true := by
  have mirrored := mirrored_run given
  refine ⟨fun network => ?_, fun network route held => ?_, fun before route after printed => ?_⟩
  · rw [mirrored.table network]
    cases found : (run steps (State.empty ip)).nlri.get? network with
    | none => simp
    | some nlri =>
        have present := NLRI.published_isSome (mirrored.entries network nlri found).1
        simp [← present, Option.isSome_iff_exists]
  · rw [mirrored.table network] at held
    obtain ⟨nlri, found, published⟩ := Option.bind_eq_some_iff.mp held
    obtain ⟨typed, same⟩ := mirrored.entries network nlri found
    obtain ⟨shown, done, _⟩ := typed.route
    refine ⟨nlri, found, same, typed.describes ?_⟩
    cases announced : nlri.announce with
    | true =>
        have equal : shown = route := by simpa [NLRI.published, announced, done, Except.toOption] using published
        rw [done, equal]
    | false => simp [NLRI.published, announced] at published
  · have log : (run steps (State.empty ip)).output.map Command.update =
        before.map Command.update ++ .delete route.routePrefix :: after.map Command.update := by
      rw [printed, List.map_append, List.map_cons, Command.update]
    exact mirrored.effective _ _ _ log route.routePrefix rfl

section Example

/-- An announcement, a partial update that raises, an update in place, a removal
and the late finaliser of the removed entry. -/
def exampleSteps : List (Step ipv4) :=
  let text := "192.0.2.0/24".toList
  let network := Ipv4.maskNat 3221225984 24
  [.add text [.list .asSeq [.int 65001], .list .community [.int 65536]],
    .add text [.list .asSeq [.int 65002], .list .community [.str "1:99999".toList], .announce false],
    .listOp network .asSeq (.prepend (.str "65003".toList)),
    .remove text,
    .add text [.announce true],
    .finalise 0]

theorem peer_table_mirrors_rib_example :
    let state := run exampleSteps (State.empty ipv4)
    state.output.length = 6 ∧
    (∀ network, (∃ route, peerTable state.output network = some route) ↔
      ∃ nlri, state.nlri.get? network = some nlri ∧ nlri.announce = true) ∧
    (∀ network route, peerTable state.output network = some route →
      ∃ nlri, state.nlri.get? network = some nlri ∧ nlri.routePrefix = network ∧ route.Describes nlri) ∧
    ∀ before route after, state.output = before ++ .withdraw route :: after →
      (peerTable before route.routePrefix).isSome = true :=
  ⟨by decide +kernel, peer_table_mirrors_rib (by
    simp [exampleSteps, Step.Given, Kwarg.Given, ListOp.Given, ListName.Given, Value.Colon])⟩

end Example

end ActiveBgp.Rib
