import ActiveBgp.Client.Encoding
import ActiveBgp.Rib.Ipv4
import ActiveBgp.Data.Run

namespace ActiveBgp.Client

open ActiveBgp.Python ActiveBgp.Rib ActiveBgp.Server ActiveBgp.Data

variable {ip : Ipaddress}

/-! # The loop of `long_path`

Every iteration binds `rib_client` to a new client for the same prefix.  The
client that was bound before is then garbage, and since it refers to itself
through its callback, its finaliser runs whenever the collector decides.
-/

/-- Where the running iteration is.  `asSeq` is the argument of its constructor call
and `previous` the client that is still bound meanwhile. -/
inductive Phase (ip : Ipaddress) where
  | idle
  | constructing (previous : Option (NLRI ip)) (asSeq : List Value)
  | posted (previous : Option (NLRI ip)) (asSeq : List Value) (client : NLRI ip)
  | bound (asSeq : List Value) (client : NLRI ip)

structure Experiment (ip : Ipaddress) where
  link : Link ip
  phase : Phase ip
  released : List (NLRI ip)

inductive Event where
  | construct (asSeq : List Value)
  | post
  | bind
  | finalise (index : Nat)
deriving DecidableEq, Repr

namespace Experiment

def start (server : State ip) : Experiment ip := ⟨⟨server, []⟩, .idle, []⟩

/-- One event of the loop for `text`, or of the collector.  A constructor that
raises ends the loop. -/
def step (text : Text) (experiment : Experiment ip) : Event → Option (Experiment ip)
  | .construct asSeq =>
      match experiment.phase with
      | .idle => some { experiment with phase := .constructing none asSeq }
      | .bound _ client => some { experiment with phase := .constructing (some client) asSeq }
      | _ => none
  | .post =>
      match experiment.phase with
      | .constructing previous asSeq =>
          match (clientMethods ip).new (ip.network? text) [.list .asSeq asSeq] experiment.link with
          | .ok client link => some { experiment with link, phase := .posted previous asSeq client }
          | .error _ _ => none
      | _ => none
  | .bind =>
      match experiment.phase with
      | .posted previous asSeq client =>
          some { experiment with phase := .bound asSeq client, released := experiment.released ++ previous.toList }
      | _ => none
  | .finalise index =>
      (experiment.released[index]?).map fun client =>
        { experiment with link := final (del client experiment.link), released := experiment.released.eraseIdx index }

def Announces (server : State ip) (network : ip.Network) (asSeq : List Value) : Prop :=
  match server.nlri.get? network with
  | some entry => entry.announce = true ∧ bgpList asListCheck asSeq = .ok entry.asSeq
  | none => False

/-- While a client is bound, the server announces its iteration's path. -/
def Holds (network : ip.Network) (experiment : Experiment ip) : Prop :=
  match experiment.phase with
  | .bound asSeq _ => Announces experiment.link.server network asSeq
  | _ => True

/-- Finalisers run only while a constructor has not sent its request yet, and an
empty path is only sent where the server shows no other. -/
def Timely (network : ip.Network) (experiment : Experiment ip) : Event → Prop
  | .finalise _ =>
      match experiment.phase with
      | .idle => True
      | .constructing _ _ => True
      | .posted _ _ _ => False
      | .bound _ _ => False
  | .post => ∀ previous, experiment.phase = .constructing previous [] →
      shownList (experiment.link.server.nlri.get? network) .asSeq = []
  | _ => True

def client (network : ip.Network) (asSeq : List Value) : NLRI ip where
  announce := true
  nextHop := .self
  community := []
  asSeq := asSeq
  asSet := []
  routePrefix := network

theorem client_typed {network : ip.Network} {asSeq checked : List Value}
    (built : bgpList asListCheck asSeq = .ok checked) : (client network checked).WellTyped :=
  ⟨by simp [client], asList_forall built, by simp [client]⟩

theorem new_client (network : ip.Network) (asSeq : List Value) {link : Link ip}
    (mirrored : Mirrored link.server) :
    match bgpList asListCheck asSeq with
    | .error error => (clientMethods ip).new (some network) [.list .asSeq asSeq] link = .error error link
    | .ok checked => ∃ server,
        (clientMethods ip).new (some network) [.list .asSeq asSeq] link =
          .ok (client network checked) ⟨server, link.exchanges ++ [⟨.post, client network checked, server⟩]⟩ ∧
        Mirrored server ∧
        server.nlri.get? network =
          some (received (link.server.nlri.get? network) (client network checked)) := by
  have given : Kwarg.listIn [.list .asSeq asSeq] .asSeq = asSeq := rfl
  cases built : bgpList asListCheck asSeq with
  | error error =>
      simp only [Methods.new, given, built]
      rfl
  | ok checked =>
      have typed : (client network checked).WellTyped := client_typed built
      obtain ⟨server, done, kept, entry, _⟩ := request_post mirrored typed
      refine ⟨server, ?_, kept, entry⟩
      have called : (clientMethods ip).callback ⟨client network checked, link⟩ =
          .ok () ⟨client network checked, ⟨server, link.exchanges ++ [⟨.post, client network checked, server⟩]⟩⟩ :=
        Methods.callback_ok (by simpa [clientMethods, client] using done)
      have empty (name : ListName) (different : name ≠ .asSeq) :
          Kwarg.listIn [.list .asSeq asSeq] name = [] := by
        simp [Kwarg.listIn, Kwarg.list?, Ne.symm different]
      have announced : (clientMethods ip).setAnnounce true ⟨{ client network checked with announce := false }, link⟩ =
          .ok () ⟨client network checked, ⟨server, link.exchanges ++ [⟨.post, client network checked, server⟩]⟩⟩ := by
        simp only [Methods.setAnnounce, Effect.bind_eq, Effect.get_apply]
        exact called
      have hop : (clientMethods ip).setNextHop (.str "self".toList) ⟨{ client network checked with announce := false }, link⟩ =
          .ok () ⟨{ client network checked with announce := false }, link⟩ := by
        simp [Methods.setNextHop, Effect.bind_eq, client]
      have named : [Kwarg.list .asSeq asSeq].any Kwarg.isOther = false := rfl
      have defaults : [Kwarg.list .asSeq asSeq].findSome? Kwarg.nextHop? = none ∧
          [Kwarg.list .asSeq asSeq].findSome? Kwarg.announce? = none := ⟨rfl, rfl⟩
      simp only [Methods.new, named, given, empty .community (by decide), empty .asSet (by decide), built,
        defaults, Bool.false_eq_true, if_false, Effect.bind_eq, Option.getD_none]
      change Object.during { client network checked with announce := false } _ link = _
      simp only [Object.during, Effect.bind_eq, hop, announced, Effect.get_apply, Effect.pure_apply]

/-- The clients that an experiment still refers to, or that await their finaliser. -/
def clients (experiment : Experiment ip) : List (NLRI ip) :=
  experiment.released ++ match experiment.phase with
    | .idle => []
    | .constructing previous _ => previous.toList
    | .posted previous _ client => previous.toList ++ [client]
    | .bound _ client => [client]

structure Sound (network : ip.Network) (experiment : Experiment ip) : Prop where
  mirrored : Mirrored experiment.link.server
  clients : ∀ client ∈ experiment.clients, client.WellTyped ∧ client.routePrefix = network

/-- From its request on, the server announces the running iteration's path. -/
def Published (network : ip.Network) (experiment : Experiment ip) : Prop :=
  match experiment.phase with
  | .posted _ asSeq _ => Announces experiment.link.server network asSeq
  | .bound asSeq _ => Announces experiment.link.server network asSeq
  | _ => True

section Steps

variable {text : Text} {network : ip.Network} {experiment after : Experiment ip} (sound : Sound network experiment)

include sound

theorem construct_cases {asSeq : List Value} (done : experiment.step text (.construct asSeq) = some after) :
    Sound network after ∧ ∃ previous, after.phase = .constructing previous asSeq := by
  obtain ⟨link, phase, released⟩ := experiment
  cases phase with
  | idle =>
      cases done
      exact ⟨⟨sound.mirrored, by simpa [Experiment.clients] using sound.clients⟩, _, rfl⟩
  | bound running client =>
      cases done
      exact ⟨⟨sound.mirrored, by simpa [Experiment.clients] using sound.clients⟩, _, rfl⟩
  | constructing previous running => contradiction
  | posted previous running client => contradiction

theorem bind_cases (done : experiment.step text .bind = some after) :
    Sound network after ∧ after.link = experiment.link ∧
      ∃ previous asSeq client, experiment.phase = .posted previous asSeq client ∧ after.phase = .bound asSeq client := by
  obtain ⟨link, phase, released⟩ := experiment
  cases phase with
  | posted previous asSeq client =>
      cases done
      exact ⟨⟨sound.mirrored, by simpa [Experiment.clients] using sound.clients⟩, rfl, _, _, _, rfl, rfl⟩
  | idle => contradiction
  | constructing previous running => contradiction
  | bound running client => contradiction

theorem finalise_cases {index : Nat} (done : experiment.step text (.finalise index) = some after) :
    Sound network after ∧ after.phase = experiment.phase ∧
      ∀ asSeq, ¬ Announces after.link.server network asSeq := by
  obtain ⟨client, found, rfl⟩ := Option.map_eq_some_iff.mp done
  have known : client ∈ experiment.clients := List.mem_append_left _ (List.mem_of_getElem? found)
  obtain ⟨typed, rfl⟩ := sound.clients client known
  obtain ⟨server, deleted, mirrored, missing, _⟩ := request_delete sound.mirrored typed
  have link : final (del client experiment.link) = ⟨server, experiment.link.exchanges ++ [⟨.delete, client, server⟩]⟩ := by
    rw [del, deleted]
    rfl
  refine ⟨⟨by rw [link]; exact mirrored, fun other member => sound.clients other ?_⟩, rfl, fun asSeq => ?_⟩
  · rcases List.mem_append.mp member with waiting | running
    · exact List.mem_append_left _ (List.mem_of_mem_eraseIdx waiting)
    · exact List.mem_append_right _ running
  · simp [link, Announces, missing]

theorem post_cases (parsed : ip.network? text = some network) (done : experiment.step text .post = some after) :
    Sound network after ∧ ∃ previous asSeq client,
      experiment.phase = .constructing previous asSeq ∧ after.phase = .posted previous asSeq client ∧
      (Announces after.link.server network asSeq ↔
        (asSeq = [] → shownList (experiment.link.server.nlri.get? network) .asSeq = [])) := by
  obtain ⟨link, phase, released⟩ := experiment
  cases phase with
  | idle => contradiction
  | posted previous running client => contradiction
  | bound running client => contradiction
  | constructing previous asSeq =>
      have created := new_client network asSeq sound.mirrored
      simp only [step, parsed] at done
      cases built : bgpList asListCheck asSeq with
      | error error =>
          rw [built] at created
          rw [created] at done
          contradiction
      | ok checked =>
          rw [built] at created
          obtain ⟨server, constructed, mirrored, entry⟩ := created
          rw [constructed] at done
          cases done
          refine ⟨⟨mirrored, ?_⟩, previous, asSeq, _, rfl, rfl, ?_⟩
          · have earlier := sound.clients
            simp only [Experiment.clients, List.mem_append, List.mem_singleton] at earlier ⊢
            intro known listed
            rcases listed with waiting | bound | rfl
            · exact earlier known (.inl waiting)
            · exact earlier known (.inr bound)
            · exact ⟨client_typed built, rfl⟩
          · have empty := bgpList_eq_nil built
            simp only [Announces, entry, built, received, client, true_and, Except.ok.injEq]
            rw [eq_comm, writeOver_eq_new, empty]

variable {event : Event}

/-- The running iteration has sent its request, but the server does not announce its path. -/
def Doomed (network : ip.Network) (experiment : Experiment ip) : Prop :=
  ∃ previous asSeq client, experiment.phase = .posted previous asSeq client ∧
    ¬ Announces experiment.link.server network asSeq

/-- Only the binding ends the doom of an iteration, and then its path is not announced. -/
theorem Doomed.step (doomed : Doomed network experiment) (done : experiment.step text event = some after)
    (holds : Holds network after) : Doomed network after := by
  obtain ⟨previous, asSeq, client, running, nothing⟩ := doomed
  cases event with
  | construct asSeq => simp [Experiment.step, running] at done
  | post => simp [Experiment.step, running] at done
  | bind =>
      obtain ⟨_, link, _, _, _, before, phase⟩ := bind_cases sound done
      rw [running] at before
      cases before
      simp only [Holds, phase, link] at holds
      exact absurd holds nothing
  | finalise index =>
      obtain ⟨_, phase, gone⟩ := finalise_cases sound done
      exact ⟨previous, asSeq, client, phase.trans running, gone asSeq⟩

variable (parsed : ip.network? text = some network)

include parsed

theorem Sound.step (done : experiment.step text event = some after) : Sound network after := by
  cases event with
  | construct asSeq => exact (construct_cases sound done).1
  | post => exact (post_cases sound parsed done).1
  | bind => exact (bind_cases sound done).1
  | finalise index => exact (finalise_cases sound done).1

theorem published_step (published : Published network experiment) (timely : Timely network experiment event)
    (done : experiment.step text event = some after) : Published network after := by
  cases event with
  | construct asSeq =>
      obtain ⟨_, previous, phase⟩ := construct_cases sound done
      simp [Published, phase]
  | post =>
      obtain ⟨_, previous, asSeq, client, before, phase, announces⟩ := post_cases sound parsed done
      simp only [Published, phase]
      refine announces.mpr fun empty => ?_
      subst empty
      exact timely previous before
  | bind =>
      obtain ⟨_, link, previous, asSeq, client, before, phase⟩ := bind_cases sound done
      simpa [Published, before, phase, link] using published
  | finalise index =>
      obtain ⟨_, phase, _⟩ := finalise_cases sound done
      cases running : experiment.phase <;> simp_all [Timely, Published]

/-- An untimely event dooms the running iteration, or ends what already held. -/
theorem untimely_step (untimely : ¬ Timely network experiment event)
    (done : experiment.step text event = some after) (holds : Holds network after) : Doomed network after := by
  cases event with
  | construct asSeq => exact absurd trivial untimely
  | bind => exact absurd trivial untimely
  | post =>
      obtain ⟨_, previous, asSeq, client, before, phase, announces⟩ := post_cases sound parsed done
      refine ⟨previous, asSeq, client, phase, fun announced => untimely ?_⟩
      intro other same
      rw [before] at same
      cases same
      exact announces.mp announced rfl
  | finalise index =>
      obtain ⟨_, phase, nothing⟩ := finalise_cases sound done
      cases running : experiment.phase with
      | idle => simp [Timely, running] at untimely
      | constructing previous asSeq => simp [Timely, running] at untimely
      | posted previous asSeq client => exact ⟨previous, asSeq, client, phase.trans running, nothing asSeq⟩
      | bound asSeq client =>
          simp only [Holds, phase, running] at holds
          exact absurd holds (nothing asSeq)

end Steps

theorem sound_start {network : ip.Network} {server : State ip} (mirrored : Mirrored server) :
    Sound network (start server) :=
  ⟨mirrored, fun client member => by simp [Experiment.clients, start] at member⟩

section Runs

variable {text : Text} {network : ip.Network} {server : State ip} {history : List (Experiment ip × Event)}
  {last : Experiment ip} (parsed : ip.network? text = some network) (mirrored : Mirrored server)
  (run : Run (step text) (start server) history last)

include parsed mirrored run

theorem sound_run : Sound network last := by
  have preserved (state : Experiment ip) (event : Event) (after : Experiment ip) (sound : Sound network state)
      (_ : True) (done : step text state event = some after) : Sound network after := sound.step parsed done
  exact (run.invariant (sound_start mirrored) preserved (fun _ _ => trivial)).2

theorem timely_run (timely : ∀ moment ∈ history, Timely network moment.1 moment.2) :
    Throughout (Holds network) history last := by
  have preserved (state : Experiment ip) (event : Event) (after : Experiment ip)
      (before : Sound network state ∧ Published network state) (now : Timely network state event)
      (done : step text state event = some after) : Sound network after ∧ Published network after :=
    ⟨before.1.step parsed done, published_step before.1 parsed before.2 now done⟩
  have kept := run.invariant ⟨sound_start mirrored, trivial⟩ preserved timely
  refine kept.imp fun experiment ⟨_, published⟩ => ?_
  cases phase : experiment.phase <;> simp_all [Published, Holds]

theorem timely_or_doomed (holds : Throughout (Holds network) history last) :
    (∀ moment ∈ history, Timely network moment.1 moment.2) ∨ Doomed network last := by
  induction run with
  | nil => exact .inl (by simp)
  | @snoc before state after earlier event done ih =>
      have sound := sound_run parsed mirrored earlier
      rcases ih holds.of_snoc with timely | doomed
      · by_cases now : Timely network state event
        · refine .inl fun moment member => ?_
          rcases List.mem_append.mp member with old | new
          · exact timely moment old
          · rw [List.mem_singleton.mp new]
            exact now
        · exact .inr (untimely_step sound parsed now done holds.2)
      · exact .inr (doomed.step sound done holds.2)

/-- In every run of the loop the server announces the path of the bound client
whenever one is bound, if all events are timely; and in a run that does not stop
between a request and its binding, only if they are. -/
theorem bound_path_announced_iff :
    ((∀ moment ∈ history, Timely network moment.1 moment.2) → Throughout (Holds network) history last) ∧
    ((∀ previous asSeq client, last.phase ≠ .posted previous asSeq client) →
      Throughout (Holds network) history last → ∀ moment ∈ history, Timely network moment.1 moment.2) := by
  refine ⟨timely_run parsed mirrored run, fun settled holds => ?_⟩
  rcases timely_or_doomed parsed mirrored run holds with timely | ⟨previous, asSeq, client, phase, _⟩
  · exact timely
  · exact absurd phase (settled previous asSeq client)

end Runs

section Example

instance (server : State ip) (network : ip.Network) (asSeq : List Value) :
    Decidable (Announces server network asSeq) := by
  unfold Announces
  split <;> infer_instance

instance (network : ip.Network) (experiment : Experiment ip) : Decidable (Holds network experiment) := by
  unfold Holds
  split <;> infer_instance

def exampleText : Text := "208.45.214.0/24".toList

def exampleNetwork : ipv4.Network := Ipv4.maskNat 3492664832 24

def exampleEvents : List Event :=
  [.construct [.int 3450], .post, .bind, .construct [.int 65001, .int 3450], .post, .bind]

theorem exampleNetwork_parsed : ipv4.network? exampleText = some exampleNetwork := by decide +kernel

/-- The first client is finalised after the second was bound. -/
theorem late_finaliser_withdraws : ∃ history last,
    Run (@step ipv4 exampleText) (start (State.empty ipv4)) history last ∧
      ¬ Holds exampleNetwork last := by
  have withdrawn : ((exampleEvents ++ [Event.finalise 0]).foldlM (@step ipv4 exampleText)
      (start (State.empty ipv4))).any (fun last => decide (¬ Holds exampleNetwork last)) = true := by
    decide +kernel
  obtain ⟨last, reached, fails⟩ := (Option.any_eq_true _ _).mp withdrawn
  obtain ⟨history, run, _⟩ := Run.of_foldlM reached
  exact ⟨history, last, run, by simpa using fails⟩

theorem bound_path_announced_iff_example : ∃ history last,
    history.map Prod.snd = exampleEvents ++ [Event.construct [], Event.finalise 0] ∧
    ((∀ moment ∈ history, Timely exampleNetwork moment.1 moment.2) →
      Throughout (Holds exampleNetwork) history last) ∧
    ((∀ previous asSeq client, last.phase ≠ .posted previous asSeq client) →
      Throughout (Holds exampleNetwork) history last →
        ∀ moment ∈ history, Timely exampleNetwork moment.1 moment.2) := by
  have enabled : ((exampleEvents ++ [Event.construct [], Event.finalise 0]).foldlM (@step ipv4 exampleText)
      (start (State.empty ipv4))).isSome = true := by decide +kernel
  obtain ⟨last, reached⟩ := Option.isSome_iff_exists.mp enabled
  obtain ⟨history, run, events⟩ := Run.of_foldlM reached
  exact ⟨history, last, events, bound_path_announced_iff exampleNetwork_parsed mirrored_empty run⟩

end Example

end Experiment

end ActiveBgp.Client
