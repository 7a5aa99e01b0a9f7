import Mathlib
import ActiveBgp.Data.Overwrites
import ActiveBgp.Peering.AllMuxes

namespace ActiveBgp.Peering.PeeringPrefix

open ActiveBgp.Python ActiveBgp.Shell ActiveBgp.Data ActiveBgp.Data.Exploration ActiveBgp.Peering.Announcement

section Files

variable {vars : Variables}

theorem get?_set_eq (file content : Text) (files : Files) :
    (files.set file content).get? = (Update.assign file content).apply files.get? := by
  funext other
  rw [Dict.get?_set, Update.apply, Function.update_apply]
  simp only [eq_comm]

theorem get?_written (file first : Text) (lines : List Text) (files : Files) :
    (appendLines file lines (overwrite file first files)).get? =
      (Update.assign file (fileText (first :: lines))).apply files.get? := by
  funext other
  rw [Update.apply, Function.update_apply]
  by_cases same : other = file
  · rw [if_pos same, same, get?_appendLines (get?_overwrite file first files)]
    rfl
  · rw [if_neg same, get?_appendLines_ne (Ne.symm same), get?_overwrite_ne (Ne.symm same)]

/-- The updates of a call of `do_announce`: the filter of the mux, and the route. -/
def filterUpdates (host : Host) (routePrefix text mux : Text) : List (Update Text Text) :=
  [.assign (filterfn host routePrefix mux) text, .assign (routefn host routePrefix) (routeLine routePrefix ++ ['\n'])]

theorem announcedFiles_table (host : Host) (routePrefix mux : Text) (vars : Variables) (files : Files) :
    (announcedFiles host routePrefix mux vars files).get? =
      overwritten files.get? (filterUpdates host routePrefix (filterText routePrefix vars) mux) := by
  rw [announcedFiles, overwrite, get?_set_eq, get?_written]
  rfl

end Files

section Commands

variable {host : Host} {args : List Text} {vars : Variables}

/-- What the command with these arguments does to the files. -/
def updates (host : Host) : List Text → List (Update Text Text)
  | subcmd :: argument :: args =>
      match prepare host (argument :: args) { files := .empty } with
      | .error _ _ => []
      | .ok _ vars =>
          let routePrefix := operand (argument :: args)
          if subcmd = "announce".toList then
            (muxes host vars.mux).flatMap (filterUpdates host routePrefix (filterText routePrefix vars.settled))
          else if subcmd = "withdraw".toList then
            (muxes host vars.mux).map fun mux => .delete (filterfn host routePrefix mux)
          else []
  | _ => []

/-- One command of `./peering prefix`. -/
def command (host : Host) (files : Files) (args : List Text) : Files :=
  final (runPeering host ("prefix".toList :: args) files)

/-- The variables at the end. -/
def ended {α : Type} : EStateM.Result Nat Variables α → Variables
  | .ok _ vars | .error _ vars => vars

theorem allAnnounced_table (host : Host) (routePrefix : Text) (vars : Variables) (names : List Text) (files : Files) :
    (allAnnounced host routePrefix vars names files).get? =
      overwritten files.get? (names.flatMap (filterUpdates host routePrefix (filterText routePrefix vars))) := by
  induction names generalizing files with
  | nil => rfl
  | cons mux rest ih =>
      rw [List.flatMap_cons, overwritten_append, ← announcedFiles_table]
      exact ih _

theorem forEach_withdraw_table (routePrefix : Text) (names : List Text) (vars : Variables) :
    (ended (forEach (withdraw host routePrefix) names vars)).files.get? =
      overwritten vars.files.get? (names.map fun mux => .delete (filterfn host routePrefix mux)) := by
  induction names generalizing vars with
  | nil => rfl
  | cons mux rest ih =>
      have erased : (vars.files.erase (filterfn host routePrefix mux)).get? =
          (Update.delete (filterfn host routePrefix mux)).apply vars.files.get? := by
        funext other
        rw [Dict.get?_erase, Update.apply, Function.update_apply]
        simp only [eq_comm]
      rw [forEach_cons]
      refine (ih _).trans ?_
      rw [List.map_cons, overwritten_cons, ← erased]

theorem ended_bind_exit (script : Script Unit) (status : Nat) (vars : Variables) :
    ended ((script >>= fun _ => exit status) vars) = ended (script vars) := by
  rw [bind_result]
  cases script vars with
  | ok _ after =>
      unfold exit
      by_cases zero : status = 0
      · rw [if_pos zero]
        rfl
      · rw [if_neg zero]
        rfl
  | error code after => rfl

theorem subcommand_table (plain : vars.Plain) (compatible : vars.Compatible) (host : Host) (routePrefix subcmd : Text) :
    (ended (subcommand host routePrefix subcmd vars)).files.get? = overwritten vars.files.get?
      (if subcmd = "announce".toList then
          (muxes host vars.mux).flatMap (filterUpdates host routePrefix (filterText routePrefix vars.settled))
        else if subcmd = "withdraw".toList then
          (muxes host vars.mux).map fun mux => .delete (filterfn host routePrefix mux)
        else []) := by
  unfold subcommand
  rw [bind_result]
  simp only [get_apply]
  by_cases announce : subcmd = "announce".toList
  · obtain ⟨after, done, files⟩ := forEach_doAnnounce plain compatible host routePrefix (muxes host vars.mux)
    rw [if_pos announce, if_pos announce, ended_bind_exit, done, ← allAnnounced_table, ← files]
    rfl
  · rw [if_neg announce, if_neg announce]
    by_cases withdraw : subcmd = "withdraw".toList
    · rw [if_pos withdraw, if_pos withdraw, ended_bind_exit, forEach_withdraw_table]
    · rw [if_neg withdraw, if_neg withdraw]
      rfl

/-- The files after a plain command are those of its updates, whatever the files were. -/
theorem command_table (plain : PlainArgs args.tail) (host : Host) (files : Files) :
    (command host files args).get? = overwritten files.get? (updates host args) := by
  have left : command host files args = (ended (peering host ("prefix".toList :: args) { files := files })).files := by
    unfold command runPeering
    cases peering host ("prefix".toList :: args) { files := files } <;> rfl
  have script : peering host ("prefix".toList :: args) = peeringPrefix host args := by
    simp only [peering, if_true]
  rw [left, script]
  cases args with
  | nil => rfl
  | cons subcmd rest =>
      cases rest with
      | nil => rfl
      | cons argument args =>
          change PlainArgs (argument :: args) at plain
          rw [peeringPrefix, updates, bind_result]
          by_cases accepts : Accepts host (argument :: args)
          · have allowed := (allowed_files host (argument :: args) files).mpr accepts.allowed
            have table := subcommand_table (plain_optioned plain files) allowed.compatible host (operand (argument :: args)) subcmd
            rw [settled_optioned, optioned_mux] at table
            rw [prepare_accepted plain accepts, prepare_accepted plain accepts]
            refine table.trans ?_
            rw [optioned_files]
            rfl
          · obtain ⟨status, ends⟩ := prepare_refused plain accepts
            obtain ⟨after, died, same⟩ := ends files
            obtain ⟨_, diedEmpty, _⟩ := ends .empty
            rw [died, diedEmpty]
            exact congrArg Dict.get? same

/-- The files after any plain commands are those of the log. -/
theorem commands_table (host : Host) {history : List (List Text)} (plain : ∀ args ∈ history, PlainArgs args.tail) (files : Files) :
    (history.foldl (command host) files).get? = overwritten files.get? (history.flatMap (updates host)) := by
  induction history generalizing files with
  | nil => rfl
  | cons args rest ih =>
      obtain ⟨first, later⟩ := List.forall_mem_cons.mp plain
      rw [List.foldl_cons, ih later, command_table first, List.flatMap_cons, overwritten_append]

/-- An origin for all muxes, and its withdrawal. -/
def exampleCommands : List (List Text) :=
  ["announce".toList :: announceOption ('o', "65001".toList) "all".toList, ["withdraw".toList, "184.164.224.0/24".toList]]

theorem commands_table_example : (exampleCommands.foldl (command twoMuxes) .empty).get? =
    overwritten (fun _ => none) (exampleCommands.flatMap (updates twoMuxes)) := by
  have constant : IsConstant "65001".toList := ⟨65001, by decide⟩
  have announce : PlainArgs (announceOption ('o', "65001".toList) "all".toList) :=
    (announceOption_named (by decide) (by decide) "all".toList).plain
      (List.forall_mem_singleton.mpr ⟨fun _ => constant, by simp, by simp⟩)
  have withdraw : PlainArgs ["184.164.224.0/24".toList] := by
    rw [PlainArgs, getopts_operand (by decide)]
    exact List.forall_mem_nil _
  have plain : ∀ args ∈ exampleCommands, PlainArgs args.tail :=
    List.forall_mem_cons.mpr ⟨announce, List.forall_mem_singleton.mpr withdraw⟩
  exact commands_table twoMuxes plain .empty

end Commands

end ActiveBgp.Peering.PeeringPrefix
