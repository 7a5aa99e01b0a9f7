import ActiveBgp.Server.Rest
import ActiveBgp.Data.Register

namespace ActiveBgp.Server

open ActiveBgp.Python ActiveBgp.Rib

variable {ip : Ipaddress} {state : State ip} {network : ip.Network}

def Request.Given (request : Request) : Prop :=
  ∀ query, queryOf request.items = .ok query → ∀ kwarg ∈ query, kwarg.Given

theorem mirrored_nlriAdd (mirrored : Mirrored state) (text : Text) {items : List (QueryKey × Text)}
    (given : ∀ query, queryOf items = .ok query → ∀ kwarg ∈ query, kwarg.Given) :
    Mirrored (final (nlriAdd text items state)) := by
  unfold nlriAdd
  cases parsed : queryOf items with
  | error error => simpa [Effect.bind_eq] using mirrored
  | ok query =>
      have kept : Mirrored (final (ribAdd text items query state)) := by
        unfold ribAdd
        split
        · exact mirrored
        · exact mirrored.add text (given query parsed)
      simp only [Effect.bind_eq, Effect.ofExcept_ok]
      cases outcome : ribAdd text items query state with
      | ok _ after =>
          rw [outcome] at kept
          simpa [Effect.attempt_ok outcome, Effect.bind_eq] using kept
      | error error after =>
          rw [outcome] at kept
          simpa [Effect.attempt_error outcome] using kept

theorem mirrored_nlriDel (mirrored : Mirrored state) (text : Text) :
    Mirrored (final (nlriDel text state)) := by
  have kept := mirrored.remove text
  unfold nlriDel
  rw [Effect.bind_eq]
  cases outcome : RIB.remove text state with
  | ok _ after =>
      rw [outcome] at kept
      simpa [Effect.bind_eq] using kept
  | error error after =>
      rw [outcome] at kept
      simpa using kept

theorem handle_state (request : Request) (state : State ip) :
    (handle request state).2 = final (view request state) := by
  unfold handle
  cases view request state <;> rfl

theorem mirrored_handle (mirrored : Mirrored state) {request : Request} (given : request.Given) :
    Mirrored (handle request state).2 := by
  rw [handle_state]
  unfold view
  cases matchRule request.path with
  | none => exact mirrored
  | some rule =>
      cases rule with
      | root => cases request.method <;> simpa [Effect.map_eq] using mirrored
      | network text =>
          cases request.method with
          | post => exact mirrored_nlriAdd mirrored text given
          | put => exact mirrored_nlriAdd mirrored text given
          | delete => exact mirrored_nlriDel mirrored text
          | _ => simpa [Effect.map_eq] using mirrored

theorem intConverter_ofNat (value : Nat) : intConverter (Text.ofNat value) = some value := by
  have digits : (Text.ofNat value).all (fun char => (Text.digitValue char).isSome) = true := by
    rw [List.all_eq_true]
    intro char member
    rw [Text.digitValue_ascii (Text.isDigit_of_mem_ofNat member)]
    rfl
  rw [intConverter, if_pos digits, Text.digitsValue_ofNat]

theorem matchRule_networkText (network : ip.Network) :
    matchRule ('/' :: ip.networkText network) = some (.network (ip.networkText network)) := by
  obtain ⟨nonempty, slashFree, _⟩ := ip.str_plain (ip.networkAddress network)
  have maskFree : '/' ∉ Text.ofNat (ip.prefixlen network) := by
    intro member
    exact absurd (Text.isDigit_of_mem_ofNat member) (by decide)
  have parts : ('/' :: ip.networkText network).splitOn '/' =
      [[], ip.str (ip.networkAddress network), Text.ofNat (ip.prefixlen network)] := by
    have joined : ['/'].intercalate [[], ip.str (ip.networkAddress network), Text.ofNat (ip.prefixlen network)] =
        '/' :: ip.networkText network := by
      simp [List.intercalate, Ipaddress.networkText]
    rw [← joined]
    exact List.splitOn_intercalate '/' (by simp [slashFree, maskFree]) (by simp)
  simp only [matchRule, parts, if_neg nonempty, intConverter_ofNat, Option.map_some]
  rfl

theorem items_of_nodup {request : Request} (distinct : (request.args.map Prod.fst).Nodup) :
    request.items = request.args :=
  Dict.entries_setDefault (by simpa [Dict.empty, Dict.keys] using distinct)

theorem keywords_plain : QueryKey.nextHop.val ∉ RIB.parameters ∧ QueryKey.announce.val ∉ RIB.parameters ∧
    ∀ name, (QueryKey.list name).val ∉ RIB.parameters :=
  ⟨by decide, by decide, fun name => by cases name <;> decide⟩

/-- Requests at `path` concern `network`. -/
structure Routed (ip : Ipaddress) (path text : Text) (network : ip.Network) : Prop where
  rule : matchRule path = some (.network text)
  parsed : ip.network? text = some network

theorem routed_networkText (network : ip.Network) :
    Routed ip ('/' :: ip.networkText network) (ip.networkText network) network :=
  ⟨matchRule_networkText network, ip.network?_print network⟩

section Handle

variable {path text : Text} (mirrored : Mirrored state) (routed : Routed ip path text network)

include mirrored routed

theorem handle_post {args : List (QueryKey × Text)} {query : List Kwarg} {after : NLRI ip}
    (parsed : queryOf (Request.mk .post path args).items = .ok query)
    (given : ∀ kwarg ∈ query, kwarg.Given) (known : (Request.mk .post path args).items.all (fun item => item.1.val ∉ RIB.parameters) = true)
    (succeeds : added (state.nlri.get? network) network query = .ok after) :
    ∃ last, handle ⟨.post, path, args⟩ state =
        (⟨200, .prefixes [(ip.networkText network, toDict after)]⟩, last) ∧
      Mirrored last ∧ last.nlri.get? network = some after ∧
      ∀ key, key ≠ network → last.nlri.get? key = state.nlri.get? key := by
  obtain ⟨last, done, entry, elsewhere⟩ := mirrored.add_ok routed.parsed given succeeds
  have called : ribAdd text (Request.mk .post path args).items query state = .ok () last := by
    have plain : ((Request.mk .post path args).items.any fun item => item.1.val ∈ RIB.parameters) = false := by
      simpa using known
    rw [ribAdd, plain]
    exact done
  have answered : handle ⟨.post, path, args⟩ state =
      (⟨200, .prefixes [(ip.networkText network, toDict after)]⟩, last) := by
    simp [handle, view, routed.rule, nlriAdd, Effect.bind_eq, Effect.map_eq, parsed, Effect.attempt_ok called, nlriGet,
      ribGet, routed.parsed, entry]
  refine ⟨last, answered, ?_, entry, elsewhere⟩
  have kept := mirrored.add text given
  rw [done] at kept
  exact kept

theorem handle_delete (args : List (QueryKey × Text)) :
    ∃ last, handle ⟨.delete, path, args⟩ state = (⟨200, .prefixes []⟩, last) ∧
      Mirrored last ∧ last.nlri.get? network = none ∧
      ∀ key, key ≠ network → last.nlri.get? key = state.nlri.get? key := by
  obtain ⟨last, done, missing, elsewhere⟩ := mirrored.remove_ok routed.parsed
  have answered : handle ⟨.delete, path, args⟩ state = (⟨200, .prefixes []⟩, last) := by
    simp [handle, view, routed.rule, nlriDel, Effect.bind_eq, Effect.map_eq, done, nlriGet, ribGet, routed.parsed, missing]
  refine ⟨last, answered, ?_, missing, elsewhere⟩
  have kept := mirrored.remove text
  rw [done] at kept
  exact kept

end Handle

end ActiveBgp.Server
