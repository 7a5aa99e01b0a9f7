import ActiveBgp.Data.Overwrites
import ActiveBgp.Python.Collections
import ActiveBgp.Python.Effect

namespace ActiveBgp.Peering.AnnouncementController

open ActiveBgp.Python ActiveBgp.Data

section Model

/-- A prefix that is written as an address and a length. -/
@[ext] structure Ipv4Prefix where
  address : Text
  length : Text
  dotted : ∀ char ∈ address, char.isDigit = true ∨ char = '.'
  decimal : ∀ char ∈ length, char.isDigit = true
deriving DecidableEq

theorem Ipv4Prefix.not_mem_address (routePrefix : Ipv4Prefix) {char : Char} (digit : char.isDigit = false) (dot : char ≠ '.') :
    char ∉ routePrefix.address := fun member => by
  rcases routePrefix.dotted char member with isDigit | isDot
  · simp [digit] at isDigit
  · exact dot isDot

theorem Ipv4Prefix.not_mem_length (routePrefix : Ipv4Prefix) {char : Char} (digit : char.isDigit = false) :
    char ∉ routePrefix.length := fun member => by
  simpa [digit] using routePrefix.decimal char member

def Ipv4Prefix.text (routePrefix : Ipv4Prefix) : Text := routePrefix.address ++ '/' :: routePrefix.length

/-- A mux is part of a file name. -/
@[ext] structure MuxName where
  name : Text
  plain : '/' ∉ name
deriving DecidableEq

variable {α : Type}

/-- What is announced to some muxes; the template reads the other fields. -/
structure Spec (α : Type) where
  muxes : List MuxName
  fields : α

structure Announce (α : Type) where
  withdraw : List MuxName := []
  announce : List (Spec α) := []

abbrev Announcement (α : Type) := Dict Ipv4Prefix (Announce α)

/-- What the files hold; other paths have `none`. -/
abbrev Directory := Text → Option Text

/-- The schema, the template and the operating system are parameters. -/
structure Controller (α : Type) where
  birdCfgDir : Text
  validate : Announcement α → Except PyError Unit
  render : Text → Spec α → Except PyError Text
  unlink : Directory → Text → Except PyError Unit
  openFile : Directory → Text → Except PyError Unit

/-- `os.path.join` -/
def joinPath (dir name : Text) : Text :=
  if name.head? = some '/' then name
  else if dir = [] ∨ dir.getLast? = some '/' then dir ++ name
  else dir ++ '/' :: name

def configName (routePrefix : Ipv4Prefix) (mux : MuxName) : Text :=
  "export_".toList ++ (mux.name ++ '_' :: routePrefix.text.map fun char => if char = '/' then '-' else char) ++ ".conf".toList

def configFile (controller : Controller α) (routePrefix : Ipv4Prefix) (mux : MuxName) : Text :=
  joinPath (joinPath controller.birdCfgDir "prefix-filters".toList) (configName routePrefix mux)

def withdraw (controller : Controller α) (routePrefix : Ipv4Prefix) (mux : MuxName) : Effect Directory Unit := do
  let files ← get
  -- The error for a file that is missing is caught.
  if (files (configFile controller routePrefix mux)).isSome then
    Effect.ofExcept (controller.unlink files (configFile controller routePrefix mux))
    modify fun files => Function.update files (configFile controller routePrefix mux) none

/-- The file is emptied before the template is rendered. -/
def announceTo (controller : Controller α) (routePrefix : Ipv4Prefix) (spec : Spec α) (mux : MuxName) :
    Effect Directory Unit := do
  let files ← get
  Effect.ofExcept (controller.openFile files (configFile controller routePrefix mux))
  modify fun files => Function.update files (configFile controller routePrefix mux) (some [])
  let text ← Effect.ofExcept (controller.render routePrefix.text spec)
  modify fun files => Function.update files (configFile controller routePrefix mux) (some text)

def announce (controller : Controller α) (routePrefix : Ipv4Prefix) (spec : Spec α) : Effect Directory Unit :=
  spec.muxes.forM (announceTo controller routePrefix spec)

/-- The body of the loop over the prefixes. -/
def updatePrefix (controller : Controller α) (entry : Ipv4Prefix × Announce α) : Effect Directory Unit := do
  entry.2.withdraw.forM (withdraw controller entry.1)
  entry.2.announce.forM (announce controller entry.1)

def updateConfig (controller : Controller α) (announcement : Announcement α) : Effect Directory Unit := do
  Effect.ofExcept (controller.validate announcement)
  announcement.entries.forM (updatePrefix controller)

end Model

section Names

variable {α : Type}

theorem map_text (routePrefix : Ipv4Prefix) :
    routePrefix.text.map (fun char => if char = '/' then '-' else char) = routePrefix.address ++ '-' :: routePrefix.length := by
  have kept {part : Text} (free : '/' ∉ part) : part.map (fun char => if char = '/' then '-' else char) = part :=
    (List.map_congr_left fun char member => if_neg fun slash : char = '/' => free (slash ▸ member)).trans (List.map_id part)
  rw [Ipv4Prefix.text, List.map_append, List.map_cons, if_pos rfl, kept (routePrefix.not_mem_address (by decide) (by decide)),
    kept (routePrefix.not_mem_length (by decide))]

theorem configName_injective {routePrefix other : Ipv4Prefix} {mux mux' : MuxName}
    (same : configName routePrefix mux = configName other mux') : routePrefix = other ∧ mux = mux' := by
  have underscore (routePrefix : Ipv4Prefix) : '_' ∉ routePrefix.address ++ '-' :: routePrefix.length := by
    have address : '_' ∉ routePrefix.address := routePrefix.not_mem_address (by decide) (by decide)
    have length : '_' ∉ routePrefix.length := routePrefix.not_mem_length (by decide)
    simp [address, length]
  unfold configName at same
  rw [map_text, map_text] at same
  obtain ⟨muxes, prefixes⟩ := append_cons_inj_last (underscore routePrefix) (underscore other)
    (List.append_cancel_left (List.append_cancel_right same))
  obtain ⟨addresses, lengths⟩ := append_cons_inj_last (routePrefix.not_mem_length (by decide))
    (other.not_mem_length (by decide)) prefixes
  exact ⟨Ipv4Prefix.ext addresses lengths, MuxName.ext muxes⟩

theorem joinPath_injective {dir name other : Text} (relative : name.head? ≠ some '/') (also : other.head? ≠ some '/')
    (same : joinPath dir name = joinPath dir other) : name = other := by
  unfold joinPath at same
  rw [if_neg relative, if_neg also] at same
  split at same
  · exact List.append_cancel_left same
  · exact (List.cons.inj (List.append_cancel_left same)).2

theorem configFile_injective (controller : Controller α) {routePrefix other : Ipv4Prefix} {mux mux' : MuxName}
    (same : configFile controller routePrefix mux = configFile controller other mux') : routePrefix = other ∧ mux = mux' := by
  have relative (routePrefix : Ipv4Prefix) (mux : MuxName) : (configName routePrefix mux).head? ≠ some '/' := by
    have start : (configName routePrefix mux).head? = some 'e' := rfl
    rw [start]
    decide
  exact configName_injective (joinPath_injective (relative routePrefix mux) (relative other mux') same)

end Names

section Logs

variable {α β : Type} {effect next : Effect Directory Unit} {needed also : Prop} {log later : List (Update Text Text)}

/-- If the effect returns, the files are those after the updates of the log. -/
def Writes (effect : Effect Directory Unit) (needed : Prop) (log : List (Update Text Text)) : Prop :=
  Effect.Performs effect needed (overwritten · log)

theorem Writes.bind (first : Writes effect needed log) (second : Writes next also later) :
    Writes (effect >>= fun _ => next) (needed ∧ also) (log ++ later) := by
  intro files after done
  obtain ⟨both, same⟩ := Effect.Performs.bind first second done
  exact ⟨both, same.trans (overwritten_append files log later).symm⟩

theorem Writes.forM {body : β → Effect Directory Unit} {needed : β → Prop} {log : β → List (Update Text Text)}
    (each : ∀ item, Writes (body item) (needed item) (log item)) (items : List β) :
    Writes (items.forM body) (∀ item ∈ items, needed item) (items.flatMap log) := by
  intro files after done
  obtain ⟨all, same⟩ := Effect.Performs.forM each items done
  exact ⟨all, same.trans List.foldl_flatMap.symm⟩

variable (controller : Controller α) (routePrefix : Ipv4Prefix)

def Renders (spec : Spec α) : Prop := ∃ text, controller.render routePrefix.text spec = .ok text

/-- The text for a spec that renders. -/
def content (spec : Spec α) : Text := (controller.render routePrefix.text spec).toOption.getD []

theorem withdraw_writes (mux : MuxName) :
    Writes (withdraw controller routePrefix mux) True [.delete (configFile controller routePrefix mux)] := by
  intro files after done
  refine ⟨trivial, ?_⟩
  change after = Function.update files (configFile controller routePrefix mux) none
  simp only [withdraw, Effect.bind_eq, Effect.get_apply] at done
  split at done
  · cases unlinked : controller.unlink files (configFile controller routePrefix mux) with
    | error error => simp [Effect.bind_eq, unlinked] at done
    | ok done' =>
        simp only [Effect.bind_eq, unlinked, Effect.ofExcept_ok, Effect.modify_apply, EStateM.Result.ok.injEq] at done
        exact done.2.symm
  · rename_i missing
    obtain rfl : files = after := by simpa using done
    rw [← Option.not_isSome_iff_eq_none.mp missing, Function.update_eq_self]

theorem announceTo_writes (spec : Spec α) (mux : MuxName) :
    Writes (announceTo controller routePrefix spec mux) (Renders controller routePrefix spec)
      [.assign (configFile controller routePrefix mux) (content controller routePrefix spec)] := by
  intro files after done
  change _ ∧ after = Function.update files (configFile controller routePrefix mux) (some (content controller routePrefix spec))
  simp only [announceTo, Effect.bind_eq, Effect.get_apply] at done
  cases opened : controller.openFile files (configFile controller routePrefix mux) with
  | error error => simp [opened] at done
  | ok _ =>
      cases rendered : controller.render routePrefix.text spec with
      | error error => simp [opened, rendered] at done
      | ok text =>
          simp only [opened, rendered, Effect.ofExcept_ok, Effect.modify_apply, EStateM.Result.ok.injEq, true_and] at done
          rw [← done, content, rendered]
          exact ⟨⟨text, rendered⟩, Function.update_idem _ _ _⟩

/-- What an entry of the announcement does to the files. -/
def changes (entry : Ipv4Prefix × Announce α) : List (Update Text Text) :=
  (entry.2.withdraw.map (configFile controller entry.1)).map .delete ++
    entry.2.announce.flatMap fun spec =>
      (spec.muxes.map (configFile controller entry.1)).map fun file => .assign file (content controller entry.1 spec)

theorem updatePrefix_writes (entry : Ipv4Prefix × Announce α) :
    Writes (updatePrefix controller entry)
      (∀ spec ∈ entry.2.announce, ∀ mux ∈ spec.muxes, Renders controller entry.1 spec) (changes controller entry) := by
  have log : changes controller entry =
      (entry.2.withdraw.flatMap fun mux => [.delete (configFile controller entry.1 mux)]) ++
        entry.2.announce.flatMap fun spec =>
          spec.muxes.flatMap fun mux => [.assign (configFile controller entry.1 mux) (content controller entry.1 spec)] := by
    simp only [changes, ← List.map_eq_flatMap, List.map_map, Function.comp_def]
  have withdraws := Writes.forM (withdraw_writes controller entry.1) entry.2.withdraw
  have announces := Writes.forM
    (fun spec => Writes.forM (announceTo_writes controller entry.1 spec) spec.muxes) entry.2.announce
  intro files after done
  obtain ⟨needed, same⟩ := withdraws.bind announces done
  rw [log]
  exact ⟨needed.2, same⟩

end Logs

section Settled

variable {α : Type}

/-- The last spec of the prefix that lists the mux. -/
def lastSpec (announcement : Announcement α) (routePrefix : Ipv4Prefix) (mux : MuxName) : Option (Spec α) :=
  (announcement.get? routePrefix).bind fun announce => (announce.announce.filter (mux ∈ ·.muxes)).getLast?

def Withdrawn (announcement : Announcement α) (routePrefix : Ipv4Prefix) (mux : MuxName) : Prop :=
  ∃ announce, announcement.get? routePrefix = some announce ∧ mux ∈ announce.withdraw

/-- What the announcement says about every file. -/
structure Settled (controller : Controller α) (announcement : Announcement α) (files after : Directory) : Prop where
  announced : ∀ routePrefix mux spec, lastSpec announcement routePrefix mux = some spec →
    ∃ text, controller.render routePrefix.text spec = .ok text ∧ after (configFile controller routePrefix mux) = some text
  withdrawn : ∀ routePrefix mux, lastSpec announcement routePrefix mux = none → Withdrawn announcement routePrefix mux →
    after (configFile controller routePrefix mux) = none
  kept : ∀ routePrefix mux, lastSpec announcement routePrefix mux = none → ¬ Withdrawn announcement routePrefix mux →
    after (configFile controller routePrefix mux) = files (configFile controller routePrefix mux)
  others : ∀ file, (∀ routePrefix mux, file ≠ configFile controller routePrefix mux) → after file = files file

variable {controller : Controller α} {announcement : Announcement α} {files after other : Directory}

theorem Settled.unique (settled : Settled controller announcement files after)
    (also : Settled controller announcement files other) : after = other := by
  funext file
  by_cases named : ∃ routePrefix mux, file = configFile controller routePrefix mux
  · obtain ⟨routePrefix, mux, rfl⟩ := named
    cases last : lastSpec announcement routePrefix mux with
    | some spec =>
        obtain ⟨text, rendered, holds⟩ := settled.announced routePrefix mux spec last
        obtain ⟨text', rendered', holds'⟩ := also.announced routePrefix mux spec last
        rw [holds, holds', Except.ok.inj (rendered.symm.trans rendered')]
    | none =>
        by_cases listed : Withdrawn announcement routePrefix mux
        · rw [settled.withdrawn routePrefix mux last listed, also.withdrawn routePrefix mux last listed]
        · rw [settled.kept routePrefix mux last listed, also.kept routePrefix mux last listed]
  · have strange : ∀ routePrefix mux, file ≠ configFile controller routePrefix mux :=
      fun routePrefix mux same => named ⟨routePrefix, mux, same⟩
    rw [settled.others file strange, also.others file strange]

theorem exists_of_mem_changes {entry : Ipv4Prefix × Announce α} {update : Update Text Text}
    (member : update ∈ changes controller entry) : ∃ mux, update.key = configFile controller entry.1 mux := by
  rcases List.mem_append.mp member with deletes | assigns
  · obtain ⟨file, listed, rfl⟩ := List.mem_map.mp deletes
    obtain ⟨mux, _, rfl⟩ := List.mem_map.mp listed
    exact ⟨mux, rfl⟩
  · obtain ⟨spec, _, assigns⟩ := List.mem_flatMap.mp assigns
    obtain ⟨file, listed, rfl⟩ := List.mem_map.mp assigns
    obtain ⟨mux, _, rfl⟩ := List.mem_map.mp listed
    exact ⟨mux, rfl⟩

theorem spares_changes {entry : Ipv4Prefix × Announce α} {routePrefix : Ipv4Prefix} (different : entry.1 ≠ routePrefix)
    (mux : MuxName) : Spares (configFile controller routePrefix mux) (changes controller entry) := by
  intro update member same
  obtain ⟨mux', named⟩ := exists_of_mem_changes member
  exact different (configFile_injective controller (named.symm.trans same)).1

/-- The withdraw list comes first, and of the specs the last one decides. -/
theorem overwritten_changes (controller : Controller α) (files : Directory) (entry : Ipv4Prefix × Announce α) (mux : MuxName) :
    overwritten files (changes controller entry) (configFile controller entry.1 mux) =
      match (entry.2.announce.filter (mux ∈ ·.muxes)).getLast? with
      | some spec => some (content controller entry.1 spec)
      | none => if mux ∈ entry.2.withdraw then none else files (configFile controller entry.1 mux) := by
  have injective : Function.Injective (configFile controller entry.1) := fun mux mux' same =>
    (configFile_injective controller same).2
  have owns (spec : Spec α) : decide (mux ∈ spec.muxes) = true ↔
      configFile controller entry.1 mux ∈ spec.muxes.map (configFile controller entry.1) := by
    rw [List.mem_map_of_injective injective, decide_eq_true_iff]
  rw [changes, overwritten_append, overwritten_groups _ _ owns, overwritten_map fun _ _ => rfl]
  cases (entry.2.announce.filter (mux ∈ ·.muxes)).getLast? with
  | some spec => rfl
  | none => simp [List.mem_map_of_injective injective]

variable {order : List (Ipv4Prefix × Announce α)}

theorem mem_order (visited : order.Perm announcement.entries) {routePrefix : Ipv4Prefix} {announce : Announce α} :
    (routePrefix, announce) ∈ order ↔ announcement.get? routePrefix = some announce :=
  visited.mem_iff.trans ⟨Dict.get?_of_mem_entries, Dict.mem_entries_of_get?⟩

/-- The entry of a prefix decides about its files, wherever it stands. -/
theorem overwritten_entry (visited : order.Perm announcement.entries) {routePrefix : Ipv4Prefix} {announce : Announce α}
    (found : announcement.get? routePrefix = some announce) (mux : MuxName) :
    overwritten files (order.flatMap (changes controller)) (configFile controller routePrefix mux) =
      overwritten files (changes controller (routePrefix, announce)) (configFile controller routePrefix mux) := by
  have distinct : order.Nodup := ((visited.map Prod.fst).nodup_iff.mpr announcement.distinct).of_map
  apply overwritten_of_mem distinct ((mem_order visited).mpr found)
  rintro ⟨other, announce'⟩ member different
  refine spares_changes ?_ mux
  rintro rfl
  have same : announce' = announce := Option.some.inj (((mem_order visited).mp member).symm.trans found)
  exact different (by rw [same])

theorem overwritten_missing (visited : order.Perm announcement.entries) {routePrefix : Ipv4Prefix}
    (missing : announcement.get? routePrefix = none) (mux : MuxName) :
    overwritten files (order.flatMap (changes controller)) (configFile controller routePrefix mux) =
      files (configFile controller routePrefix mux) := by
  apply overwritten_spared
  intro update member
  obtain ⟨⟨other, announce⟩, listed, member⟩ := List.mem_flatMap.mp member
  refine spares_changes ?_ mux update member
  rintro rfl
  exact absurd ((mem_order visited).mp listed) (by simp [missing])

theorem forM_settled (visited : order.Perm announcement.entries)
    (done : order.forM (updatePrefix controller) files = .ok ⟨⟩ after) : Settled controller announcement files after := by
  obtain ⟨needed, same⟩ := Writes.forM (updatePrefix_writes controller) order done
  obtain rfl : after = overwritten files (order.flatMap (changes controller)) := same
  refine ⟨?announced, ?withdrawn, ?kept, ?others⟩
  case announced =>
    intro routePrefix mux spec last
    obtain ⟨announce, found, last⟩ := Option.bind_eq_some_iff.mp last
    have listed := List.mem_filter.mp (List.mem_of_getLast? last)
    obtain ⟨text, rendered⟩ := needed _ ((mem_order visited).mpr found) spec listed.1 mux (of_decide_eq_true listed.2)
    refine ⟨text, rendered, ?_⟩
    rw [overwritten_entry visited found, overwritten_changes controller files (routePrefix, announce), last]
    simp [content, rendered, Except.toOption]
  case withdrawn =>
    rintro routePrefix mux unlisted ⟨announce, found, listed⟩
    rw [lastSpec, found, Option.bind_some] at unlisted
    rw [overwritten_entry visited found, overwritten_changes controller files (routePrefix, announce), unlisted]
    exact if_pos listed
  case kept =>
    intro routePrefix mux unlisted keeps
    cases found : announcement.get? routePrefix with
    | none => exact overwritten_missing visited found mux
    | some announce =>
        rw [lastSpec, found, Option.bind_some] at unlisted
        rw [overwritten_entry visited found, overwritten_changes controller files (routePrefix, announce), unlisted]
        exact if_neg fun listed => keeps ⟨announce, found, listed⟩
  case others =>
    intro file strange
    apply overwritten_spared
    intro update member same
    obtain ⟨entry, _, member⟩ := List.mem_flatMap.mp member
    obtain ⟨mux, named⟩ := exists_of_mem_changes member
    exact strange entry.1 mux (same.symm.trans named)

/-- The operating system lets the files be removed and written, and the template renders. -/
structure Feasible (controller : Controller α) (announcement : Announcement α) : Prop where
  unlinks : ∀ entry ∈ announcement.entries, ∀ mux ∈ entry.2.withdraw, ∀ files,
    controller.unlink files (configFile controller entry.1 mux) = .ok ()
  opens : ∀ entry ∈ announcement.entries, ∀ spec ∈ entry.2.announce, ∀ mux ∈ spec.muxes, ∀ files,
    controller.openFile files (configFile controller entry.1 mux) = .ok ()
  renders : ∀ entry ∈ announcement.entries, ∀ spec ∈ entry.2.announce, Renders controller entry.1 spec

theorem Feasible.returned_updatePrefix (feasible : Feasible controller announcement) {entry : Ipv4Prefix × Announce α}
    (member : entry ∈ announcement.entries) (files : Directory) : returned (updatePrefix controller entry files) = true := by
  apply Effect.returned_bind
  · apply Effect.returned_forM
    intro mux listed files
    simp only [withdraw, Effect.bind_eq, Effect.get_apply]
    split
    · simp [Effect.bind_eq, feasible.unlinks entry member mux listed files]
    · rfl
  · apply Effect.returned_forM
    intro spec listed
    apply Effect.returned_forM
    intro mux among files
    obtain ⟨text, rendered⟩ := feasible.renders entry member spec listed
    simp [announceTo, Effect.bind_eq, feasible.opens entry member spec listed mux among files, rendered]

theorem Feasible.returned_forM (feasible : Feasible controller announcement) (visited : order.Perm announcement.entries)
    (files : Directory) : returned (order.forM (updatePrefix controller) files) = true :=
  Effect.returned_forM (fun _ member => feasible.returned_updatePrefix (visited.mem_iff.mp member)) files

theorem updateConfig_eq (valid : controller.validate announcement = .ok ()) (files : Directory) :
    updateConfig controller announcement files = announcement.entries.forM (updatePrefix controller) files := by
  rw [updateConfig, Effect.bind_eq, valid, Effect.ofExcept_ok]

theorem updateConfig_files (controller : Controller α) (announcement : Announcement α) (files : Directory)
    (valid : controller.validate announcement = .ok ()) :
    (Feasible controller announcement → returned (updateConfig controller announcement files) = true) ∧
      ∀ after, updateConfig controller announcement files = .ok ⟨⟩ after →
        Settled controller announcement files after ∧
          ∀ order : List (Ipv4Prefix × Announce α), order.Perm announcement.entries →
            (Feasible controller announcement → order.forM (updatePrefix controller) files = .ok ⟨⟩ after) ∧
              ∀ other, order.forM (updatePrefix controller) files = .ok ⟨⟩ other → other = after := by
  rw [updateConfig_eq valid]
  refine ⟨fun feasible => feasible.returned_forM (List.Perm.refl _) files, fun after done => ?_⟩
  have settled := forM_settled (List.Perm.refl _) done
  refine ⟨settled, fun order visited => ?_⟩
  have same (other : Directory) (returns : order.forM (updatePrefix controller) files = .ok ⟨⟩ other) : other = after :=
    (forM_settled visited returns).unique settled
  refine ⟨fun feasible => ?_, same⟩
  have returns := feasible.returned_forM visited files
  cases ran : order.forM (updatePrefix controller) files with
  | error error other => simp [ran] at returns
  | ok value other => rw [same other ran]

/-- The spec is the file. -/
def exampleController : Controller Text where
  birdCfgDir := "configs/bird".toList
  validate _ := .ok ()
  render _ spec := .ok spec.fields
  unlink _ _ := .ok ()
  openFile _ _ := .ok ()

def examplePrefix : Ipv4Prefix where
  address := "184.164.236.0".toList
  length := "24".toList
  dotted char member := by
    have all : "184.164.236.0".toList.all (fun char => decide (char.isDigit = true ∨ char = '.')) = true := by decide
    exact of_decide_eq_true (List.all_eq_true.mp all char member)
  decimal char member := by
    have all : "24".toList.all Char.isDigit = true := by decide
    exact List.all_eq_true.mp all char member

def exampleMux : MuxName := ⟨"ufmg01".toList, by decide⟩

def exampleAnnouncement : Announcement Text :=
  Dict.empty.set examplePrefix ⟨[exampleMux], [⟨[exampleMux], "first".toList⟩, ⟨[exampleMux], "second".toList⟩]⟩

theorem updateConfig_files_example :
    ∃ after, updateConfig exampleController exampleAnnouncement (fun _ => none) = .ok ⟨⟩ after ∧
      after (configFile exampleController examplePrefix exampleMux) = some "second".toList := by
  obtain ⟨returns, outcome⟩ := updateConfig_files exampleController exampleAnnouncement (fun _ => none) rfl
  have feasible : Feasible exampleController exampleAnnouncement :=
    ⟨fun _ _ _ _ _ => rfl, fun _ _ _ _ _ _ _ => rfl, fun _ _ spec _ => ⟨spec.fields, rfl⟩⟩
  cases ran : updateConfig exampleController exampleAnnouncement (fun _ => none) with
  | error error after =>
      have done := returns feasible
      simp [ran] at done
  | ok value after =>
      obtain ⟨text, rendered, holds⟩ := (outcome after ran).1.announced examplePrefix exampleMux
        ⟨[exampleMux], "second".toList⟩ rfl
      obtain rfl : "second".toList = text := Except.ok.inj rendered
      exact ⟨after, rfl, holds⟩

end Settled

end ActiveBgp.Peering.AnnouncementController
