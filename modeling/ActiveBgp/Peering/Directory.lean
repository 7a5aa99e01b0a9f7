import ActiveBgp.Peering.ExportedRoutes
import ActiveBgp.Peering.Histories

namespace ActiveBgp.Peering.Exports

open ActiveBgp.Python ActiveBgp.Shell ActiveBgp.Bird ActiveBgp.Bird.Path ActiveBgp.Bird.Filter ActiveBgp.Data
  ActiveBgp.Peering.PeeringPrefix ActiveBgp.Peering.Announcement
open ActiveBgp.Bird.SetAttribute (Community)

/-! # The filters of a mux

A mux has a file for every prefix that is announced to it.  After any plain commands
with numbers that BIRD reads, the files together are a filter that sends each prefix as
the last command about it asked for, and leaves a withdrawn prefix to what stands behind
the files.
-/

section Names

variable {lib : Library} {host : Host}

theorem replaceFirst_append {old new : Char} {front : Text} (free : old ∉ front) (rest : Text) :
    replaceFirst old new (front ++ old :: rest) = front ++ new :: rest := by
  induction front with
  | nil => exact if_pos rfl
  | cons char others ih =>
      obtain ⟨other, later⟩ := not_or.mp (mt List.mem_cons.mpr free)
      rw [List.cons_append, replaceFirst, if_neg (Ne.symm other), ih later]
      rfl

theorem Network.not_mem_address (net : Network lib) {char : Char} (other : char.isDigit = false ∧ char ≠ '.') :
    char ∉ net.address := fun inside =>
  (dotted_within.mem net.isAddress char inside).elim (fun digit => Bool.false_ne_true (other.1.symm.trans digit)) other.2

theorem Numeral.not_mem_digits (number : Numeral) {char : Char} (other : char.isDigit = false) : char ∉ number.digits :=
  fun inside => Bool.false_ne_true (other.symm.trans (number.isDigit char inside))

theorem Network.noColon (net : Network lib) : ':' ∉ net.text := by
  intro inside
  rcases List.mem_append.mp inside with address | later
  · exact net.not_mem_address (by decide) address
  · rcases List.mem_cons.mp later with slash | digit
    · exact absurd slash (by decide)
    · exact net.len.not_mem_digits (by decide) digit

/-- The name of the file of a prefix. -/
def Network.fileName (net : Network lib) : Text := net.address ++ '-' :: net.len.digits

theorem prefixfn_text (net : Network lib) : prefixfn net.text = net.fileName := by
  rw [prefixfn, if_neg net.noColon]
  exact replaceFirst_append (net.not_mem_address (by decide)) _

theorem filterfn_text (net : Network lib) (mux : Text) : filterfn host net.text mux =
    (host.progdir ++ "/configs/bird".toList ++ "/prefix-filters/export_".toList) ++
      (mux ++ '_' :: (net.fileName ++ ".conf".toList)) := by
  rw [filterfn, birdCfgs, if_neg net.noColon, prefixfn_text]
  simp only [List.append_assoc]
  rfl

/-- The files of different muxes and prefixes have different names. -/
theorem filterfn_inj {first second : Network lib} {mux other : Text}
    (same : filterfn host first.text mux = filterfn host second.text other) : first.text = second.text ∧ mux = other := by
  have plain (net : Network lib) : '_' ∉ net.fileName ++ ".conf".toList := by
    intro inside
    rcases List.mem_append.mp inside with name | suffix
    · rcases List.mem_append.mp name with address | later
      · exact net.not_mem_address (by decide) address
      · rcases List.mem_cons.mp later with dash | digit
        · exact absurd dash (by decide)
        · exact net.len.not_mem_digits (by decide) digit
    · exact absurd suffix (by decide)
  rw [filterfn_text, filterfn_text] at same
  obtain ⟨muxes, names⟩ := append_cons_inj_last (plain first) (plain second) (List.append_cancel_left same)
  obtain ⟨addresses, lengths⟩ := append_cons_inj (first.not_mem_address (by decide)) (second.not_mem_address (by decide))
    (List.append_cancel_right names)
  exact ⟨by rw [Network.text, Network.text, addresses, lengths], muxes⟩

theorem routefn_ne_filterfn (routed net : Network lib) (mux : Text) : routefn host routed.text ≠ filterfn host net.text mux := by
  rw [routefn, birdCfgs, if_neg routed.noColon, filterfn, birdCfgs, if_neg net.noColon]
  intro same
  have routes : "/route-announcements/".toList = '/' :: 'r' :: "oute-announcements/".toList := by decide
  have filters : "/prefix-filters/export_".toList = '/' :: 'p' :: "refix-filters/export_".toList := by decide
  have rest := List.append_cancel_left same
  rw [routes, filters] at rest
  simp only [List.cons_append, List.cons.injEq] at rest
  exact absurd rest.2.1 (by decide)

end Names

section Events

variable {lib : Library} {host : Host}

/-- What a command was about: the request or the withdrawal of a prefix for some muxes, or nothing. -/
inductive Event (lib : Library) where
  | announced (request : Request) (net : Network lib) (muxes : List Text)
  | withdrawn (net : Network lib) (muxes : List Text)
  | refused

/-- The requests that are in force, by prefix and mux. -/
def Event.updates : Event lib → List (Update (Text × Text) Request)
  | .announced request net muxes => muxes.map fun mux => .assign (net.text, mux) request
  | .withdrawn net muxes => muxes.map fun mux => .delete (net.text, mux)
  | .refused => []

/-- The arguments of a plain command and what it is about.  An announcement that is accepted is one with
numbers that BIRD reads. -/
inductive Performs (host : Host) (lib : Library) : List Text → Event lib → Prop where
  | announced {args : List Text} {request : Request} {net : Network lib} (plain : PlainArgs args) (accepts : Accepts host args)
      (given : request.Given (optioned args .empty)) (named : operand args = net.text) :
      Performs host lib ("announce".toList :: args) (.announced request net (muxes host (optioned args .empty).mux))
  | withdrawn {args : List Text} {net : Network lib} (plain : PlainArgs args) (accepts : Accepts host args)
      (named : operand args = net.text) :
      Performs host lib ("withdraw".toList :: args) (.withdrawn net (muxes host (optioned args .empty).mux))
  | refused {args : List Text} (plain : PlainArgs args) (refused : ¬ Accepts host args) (subcmd : Text) :
      Performs host lib (subcmd :: args) .refused

theorem Performs.plain {args : List Text} {event : Event lib} (performs : Performs host lib args event) : PlainArgs args.tail := by
  cases performs with
  | announced plain => exact plain
  | withdrawn plain => exact plain
  | refused plain => exact plain

/-- The files are those of the requests. -/
def Agrees (host : Host) (lib : Library) (files : Files) (requests : Text × Text → Option Request) : Prop :=
  ∀ (net : Network lib) (mux : Text),
    files.get? (filterfn host net.text mux) = (requests (net.text, mux)).map fun request => (request.announced net).text

theorem text_announced (request : Request) {net other : Network lib} (same : net.text = other.text) :
    (request.announced net).text = (request.announced other).text := by
  rw [Announced.text, Announced.text]
  simp only [Request.announced, same]

/-- The writes of an announcement at the file of a prefix and a mux. -/
theorem overwritten_filters (text : Text) (announced net : Network lib) (names : List Text) (mux : Text)
    (table : Text → Option Text) :
    overwritten table (names.flatMap (filterUpdates host announced.text text)) (filterfn host net.text mux) =
      if net.text = announced.text ∧ mux ∈ names then some text else table (filterfn host net.text mux) := by
  induction names generalizing table with
  | nil => simp [overwritten]
  | cons first rest ih =>
      have apart : filterfn host net.text mux ≠ routefn host announced.text := (routefn_ne_filterfn announced net mux).symm
      rw [List.flatMap_cons, overwritten_append, ih]
      simp only [filterUpdates, overwritten, List.foldl_cons, List.foldl_nil, Update.apply, Function.update_of_ne apart, List.mem_cons]
      rw [Function.update_apply]
      by_cases same : filterfn host net.text mux = filterfn host announced.text first
      · obtain ⟨texts, rfl⟩ := filterfn_inj same
        rw [if_pos same, ite_self, if_pos ⟨texts, .inl rfl⟩]
      · rw [if_neg same]
        have other : ¬ (net.text = announced.text ∧ mux = first) := fun both => same (by rw [both.1, both.2])
        refine if_congr ?_ rfl rfl
        exact ⟨fun both => ⟨both.1, .inr both.2⟩, fun both => ⟨both.1, both.2.resolve_left fun equal => other ⟨both.1, equal⟩⟩⟩

theorem overwritten_requests {write : Text × Text → Update (Text × Text) Request} {value : Option Request}
    (writes : ∀ name table, (write name).apply table = Function.update table name value) (text other : Text)
    (names : List Text) (mux : Text) (requests : Text × Text → Option Request) :
    overwritten requests (names.map fun mux => write (text, mux)) (other, mux) =
      if other = text ∧ mux ∈ names then value else requests (other, mux) := by
  have keys : (names.map fun mux => write (text, mux)) = (names.map fun mux => (text, mux)).map write := by
    rw [List.map_map]
    rfl
  have found := overwritten_map writes requests (names.map fun mux => (text, mux)) (other, mux)
  have listed : (other, mux) ∈ names.map (fun mux => (text, mux)) ↔ other = text ∧ mux ∈ names := by
    simp only [List.mem_map, Prod.mk.injEq]
    exact ⟨fun ⟨name, listed, texts, same⟩ => ⟨texts.symm, same ▸ listed⟩, fun both => ⟨mux, both.2, both.1.symm, rfl⟩⟩
  rw [keys, found]
  by_cases member : other = text ∧ mux ∈ names
  · rw [if_pos member, if_pos (listed.mpr member)]
  · rw [if_neg member, if_neg (mt listed.mp member)]

theorem updates_accepted {args : List Text} (plain : PlainArgs args) (accepts : Accepts host args) {net : Network lib}
    (named : operand args = net.text) (subcmd : Text) : updates host (subcmd :: args) =
      if subcmd = "announce".toList then (muxes host (optioned args .empty).mux).flatMap
        (filterUpdates host net.text (filterText net.text (optioned args .empty).settled))
      else if subcmd = "withdraw".toList then
        (muxes host (optioned args .empty).mux).map fun mux => .delete (filterfn host net.text mux)
      else [] := by
  obtain ⟨argument, rest, rfl⟩ := List.exists_cons_of_ne_nil (fun empty => operand_nil_ne net (empty ▸ named))
  rw [updates, prepare_accepted plain accepts]
  simp only [named]

theorem updates_refused {args : List Text} (plain : PlainArgs args) (refused : ¬ Accepts host args) (subcmd : Text) :
    updates host (subcmd :: args) = [] := by
  obtain ⟨status, ends⟩ := prepare_refused plain refused
  obtain ⟨after, died, _⟩ := ends .empty
  cases args with
  | nil => rfl
  | cons argument rest => rw [updates, died]

theorem Performs.agrees {args : List Text} {event : Event lib} (performs : Performs host lib args event) {files : Files}
    {requests : Text × Text → Option Request} (agrees : Agrees host lib files requests) :
    Agrees host lib (command host files args) (overwritten requests event.updates) := by
  intro net mux
  rw [command_table performs.plain]
  cases performs with
  | @announced args request announced plain accepts given named =>
      rw [updates_accepted plain accepts named, if_pos rfl, filterText_given given (plain_optioned plain .empty),
        overwritten_filters, Event.updates, @overwritten_requests (.assign · request) (some request) fun _ _ => rfl]
      split
      · next both => rw [Option.map_some, text_announced request both.1]
      · exact agrees net mux
  | @withdrawn args withdrawn plain accepts named =>
      let names := muxes host (optioned args .empty).mux
      have keys : (names.map fun mux => (.delete (filterfn host withdrawn.text mux) : Update Text Text)) =
          (names.map fun mux => filterfn host withdrawn.text mux).map .delete := by
        rw [List.map_map]
        rfl
      have listed : filterfn host net.text mux ∈ names.map (fun mux => filterfn host withdrawn.text mux) ↔
          net.text = withdrawn.text ∧ mux ∈ names := by
        rw [List.mem_map]
        constructor
        · rintro ⟨name, member, same⟩
          obtain ⟨texts, rfl⟩ := filterfn_inj same
          exact ⟨texts.symm, member⟩
        · rintro ⟨texts, member⟩
          exact ⟨mux, member, by rw [texts]⟩
      rw [updates_accepted plain accepts named, if_neg (by decide), if_pos rfl, keys,
        @overwritten_map _ _ _ .delete none fun _ _ => rfl, Event.updates, @overwritten_requests .delete none fun _ _ => rfl]
      by_cases both : net.text = withdrawn.text ∧ mux ∈ names
      · rw [if_pos both, if_pos (listed.mpr both)]
        rfl
      · rw [if_neg both, if_neg (mt listed.mp both)]
        exact agrees net mux
  | @refused args plain refused subcmd =>
      rw [updates_refused plain refused]
      exact agrees net mux

end Events

section Sessions

variable {ctx : Filter.Context} {host : Host} {isLinkLocal : IpAddr → Bool} {p : Proto} {rta : Rta} {state : State}
  {path : AsPath 4} {communities : List Community}

/-- The announcements in force for a mux, in the order in which BIRD reads their files. -/
def announcements {lib : Library} (requests : Text × Text → Option Request) (nets : List (Network lib)) (mux : Text) :
    List (Announced lib) :=
  nets.filterMap fun net => (requests (net.text, mux)).map fun request => request.announced net

/-- An announcement, and a withdrawal of a prefix that is not configured. -/
def exampleHistory : List (List Text) := ["announce".toList :: exampleArgs, ["withdraw".toList, "184.164.225.0/24".toList]]

def exampleEvents : List (Event exampleContext.lib) := [.announced exampleRequest exampleNet ["amsterdam01".toList], .refused]

end Sessions

end ActiveBgp.Peering.Exports
