import ActiveBgp.Peering.PeeringPrefix

namespace ActiveBgp.Peering.PeeringPrefix

open ActiveBgp.Python ActiveBgp.Shell ActiveBgp.Data.Exploration

/-! # Plain command lines

What bash makes of an option may depend on the files, and may change the variables.  It
does neither on a plain command line, where numbers are decimal and no poison is a
pattern: the script takes such options or refuses them, and only assigns.
-/

section Constants

variable {host : Host} {files : Files} {text : Text} {condition : Int → Bool}

def IsConstant (text : Text) : Prop := ∃ value, constant? text = some value

/-- The value of a constant. -/
def valueOf (text : Text) : Int := (constant? text).getD 0

theorem valueOf_eq {value : Int} (constant : constant? text = some value) : valueOf text = value := by
  rw [valueOf, constant, Option.getD_some]

theorem IsConstant.eq (constant : IsConstant text) : constant? text = some (valueOf text) := by
  obtain ⟨value, found⟩ := constant
  rw [found, valueOf_eq found]

theorem words_number (glob : Text → List Text) (nonempty : text ≠ []) (numeric : Text.Numeric text) :
    words glob text = [text] := by
  rw [words_plain glob (ordinary_numeric numeric)]
  have single : splitWords (" ".toList.intercalate [text]) = [text] := splitWords_intercalate fun item inside => by
    rw [List.mem_singleton.mp inside]
    exact ⟨nonempty, dark_numeric numeric⟩
  simpa using single

theorem IsConstant.words (constant : IsConstant text) (glob : Text → List Text) : words glob text = [text] := by
  obtain ⟨nonempty, numeric, _⟩ := constant?_spec constant.eq
  exact words_number glob nonempty numeric

theorem IsConstant.integer (constant : IsConstant text) : integer? text = some (valueOf text) :=
  (constant?_spec constant.eq).2.2

theorem testZero_constant (constant : IsConstant text) (operator : Text) :
    testZero host files operator condition text = condition (valueOf text) := by
  simp only [testZero, constant.words, constant.integer, Option.any_some]

theorem isZero_constant (constant : IsConstant text) : isZero host files text = decide (valueOf text = 0) :=
  testZero_constant constant _

theorem isNonzero_constant (constant : IsConstant text) : isNonzero host files text = decide (valueOf text ≠ 0) :=
  testZero_constant constant _

theorem seqLength_constant (constant : IsConstant text) : seqLength host files text = (valueOf text).toNat := by
  simp only [seqLength, constant.words, constant.integer]

theorem satisfies_constant (constant : IsConstant text) (vars : Variables) :
    satisfies host text condition vars = .ok (condition (valueOf text)) vars := by
  simp only [satisfies, arithmetic, constant.eq, pure_bind, Option.any_some, pure_apply]

end Constants

section Checks

variable {script next : Script Unit} {vars : Variables} {accepts also : Prop}

/-- The script changes nothing where the condition holds, and dies where it does not. -/
structure Checks (script : Script Unit) (vars : Variables) (accepts : Prop) : Prop where
  passed : accepts → script vars = .ok () vars
  died : ¬ accepts → script vars = .error 1 vars

theorem Checks.of_iff (checks : Checks script vars accepts) (same : accepts ↔ also) : Checks script vars also :=
  ⟨fun holds => checks.passed (same.mpr holds), fun fails => checks.died (mt same.mp fails)⟩

theorem Checks.bind (first : Checks script vars accepts) (second : Checks next vars also) :
    Checks (script >>= fun _ => next) vars (accepts ∧ also) := by
  refine ⟨fun both => ?_, fun fails => ?_⟩
  · rw [bind_result, first.passed both.1]
    exact second.passed both.2
  · rw [bind_result]
    by_cases now : accepts
    · rw [first.passed now]
      exact second.died fun later => fails ⟨now, later⟩
    · rw [first.died now]

theorem checks_forEach {α : Type} {body : α → Script Unit} {accepts : α → Prop} {items : List α}
    (each : ∀ item ∈ items, Checks (body item) vars (accepts item)) :
    Checks (forEach body items) vars (∀ item ∈ items, accepts item) := by
  induction items with
  | nil => exact ⟨fun _ => rfl, fun fails => absurd (List.forall_mem_nil _) fails⟩
  | cons item rest ih =>
      obtain ⟨first, later⟩ := List.forall_mem_cons.mp each
      exact (first.bind (ih later)).of_iff List.forall_mem_cons.symm

theorem checks_dieIf {condition : Script Bool} {value : Bool} (known : condition vars = .ok value vars) :
    Checks (dieIf condition) vars (value = false) := by
  unfold dieIf
  refine ⟨fun holds => ?_, fun fails => ?_⟩
  · rw [bind_result, known, holds]
    rfl
  · obtain rfl : value = true := by simpa using fails
    rw [bind_result, known]
    rfl

end Checks

section Options

variable {host : Host} {vars : Variables} {option : Char × Text} {options : List (Char × Text)} {comm optarg : Text}

/-- A number of 16 bits. -/
def Short (text : Text) : Prop := 0 ≤ valueOf text ∧ valueOf text ≤ 65535

theorem checks_checkCommunity (constant : IsConstant comm) : Checks (checkCommunity host comm) vars (Short comm) := by
  refine ((checks_dieIf (satisfies_constant constant vars)).bind (checks_dieIf (satisfies_constant constant vars))).of_iff ?_
  simp only [decide_eq_false_iff_not, Short]
  omega

/-- Bash has nothing to evaluate in the option, and nothing to match with files. -/
structure PlainOption (option : Char × Text) : Prop where
  number : option.1 ∈ ['P', 'o', 'c'] → IsConstant option.2
  numbers : option.1 = 'C' → ∀ comm ∈ splitWords (commasToLines option.2), IsConstant comm
  literal : option.1 ∈ ['p', 'C'] → ∀ char ∈ option.2, isSpecial char = false

/-- The options of the command line are plain. -/
def PlainArgs (args : List Text) : Prop := ∀ option ∈ (getopts letters args).1, PlainOption option

/-- The script takes the option. -/
structure Taken (option : Char × Text) : Prop where
  known : option.1 ∈ letters
  short : option.1 = 'c' → Short option.2
  shorts : option.1 = 'C' → ∀ comm ∈ splitWords (commasToLines option.2), Short comm

/-- The variables after an option that the script takes. -/
def Variables.assign (vars : Variables) (option : Char × Text) : Variables :=
  match option.1 with
  | 'm' => { vars with mux := option.2 }
  | 'p' => { vars with poisons := option.2 }
  | 'P' => { vars with prepend := option.2 }
  | 'o' => { vars with origin := option.2 }
  | 'c' => { vars with communities := vars.communities ++ [option.2] }
  | 'C' => { vars with fullCommunities := vars.fullCommunities ++ splitWords option.2 }
  | _ => vars

theorem words_commasToLines (literal : ∀ char ∈ optarg, isSpecial char = false) (glob : Text → List Text) :
    words glob (commasToLines optarg) = splitWords (commasToLines optarg) := by
  refine words_plain glob fun char inside => ?_
  obtain ⟨old, member, rfl⟩ := List.mem_map.mp inside
  split
  · decide
  · exact literal old member

theorem setOption_c (host : Host) (vars : Variables) (optarg : Text) : setOption host ('c', optarg) vars =
    (checkCommunity host optarg >>= fun _ => modify fun vars =>
      { vars with communities := vars.communities ++ words (host.glob vars.files) optarg }) vars := rfl

theorem setOption_C (host : Host) (vars : Variables) (optarg : Text) : setOption host ('C', optarg) vars =
    (forEach (checkCommunity host) (words (host.glob vars.files) (commasToLines optarg)) >>= fun _ => modify fun vars =>
      { vars with fullCommunities := vars.fullCommunities ++ words (host.glob vars.files) optarg }) vars := rfl

theorem setOption_taken (plain : PlainOption option) (taken : Taken option) (host : Host) (vars : Variables) :
    setOption host option vars = .ok () (vars.assign option) := by
  obtain ⟨letter, optarg⟩ := option
  have known := taken.known
  simp only [letters, List.mem_cons, List.not_mem_nil, or_false] at known
  rcases known with rfl | rfl | rfl | rfl | rfl | rfl
  · rfl
  · rfl
  · rfl
  · rfl
  · have constant : IsConstant optarg := plain.number (by simp)
    rw [setOption_c, bind_result, (checks_checkCommunity constant).passed (taken.short rfl)]
    simp only [modify_apply, constant.words]
    rfl
  · have literal : ∀ char ∈ optarg, isSpecial char = false := plain.literal (by simp)
    have checked := checks_forEach fun comm inside => @checks_checkCommunity host vars comm (plain.numbers rfl comm inside)
    rw [setOption_C, words_commasToLines literal, bind_result, checked.passed (taken.shorts rfl)]
    simp only [modify_apply, words_plain _ literal]
    rfl

theorem setOption_refused (plain : PlainOption option) (refused : ¬ Taken option) (host : Host) :
    ∃ status, ∀ vars, setOption host option vars = .error status vars := by
  obtain ⟨letter, optarg⟩ := option
  by_cases known : letter ∈ letters
  · refine ⟨1, fun vars => ?_⟩
    by_cases short : letter = 'c' → Short optarg
    · have long : ¬ (letter = 'C' → ∀ comm ∈ splitWords (commasToLines optarg), Short comm) :=
        fun shorts => refused ⟨known, short, shorts⟩
      obtain ⟨rfl, broken⟩ := Classical.not_imp.mp long
      have checked := checks_forEach fun comm inside => @checks_checkCommunity host vars comm (plain.numbers rfl comm inside)
      rw [setOption_C, words_commasToLines (plain.literal (by simp)), bind_result, checked.died broken]
    · obtain ⟨rfl, long⟩ := Classical.not_imp.mp short
      rw [setOption_c, bind_result, (checks_checkCommunity (plain.number (by simp))).died long]
  · refine ⟨0, fun vars => ?_⟩
    simp only [letters, List.mem_cons, List.not_mem_nil, or_false, not_or] at known
    simp only [setOption]
    split
    all_goals first | rfl | simp_all

theorem setOptions_taken (plain : ∀ option ∈ options, PlainOption option) (taken : ∀ option ∈ options, Taken option)
    (host : Host) (vars : Variables) : forEach (setOption host) options vars = .ok () (options.foldl Variables.assign vars) := by
  induction options generalizing vars with
  | nil => rfl
  | cons option rest ih =>
      obtain ⟨first, others⟩ := List.forall_mem_cons.mp plain
      obtain ⟨now, later⟩ := List.forall_mem_cons.mp taken
      rw [forEach_cons, setOption_taken first now]
      exact ih others later _

theorem files_assign (vars : Variables) (option : Char × Text) : (vars.assign option).files = vars.files := by
  unfold Variables.assign
  split <;> rfl

/-- An option that is refused ends the script, whatever the variables are. -/
theorem setOptions_refused (plain : ∀ option ∈ options, PlainOption option) (refused : ¬ ∀ option ∈ options, Taken option)
    (host : Host) : ∃ status, ∀ vars, ∃ after,
      forEach (setOption host) options vars = .error status after ∧ after.files = vars.files := by
  induction options with
  | nil => exact absurd (List.forall_mem_nil _) refused
  | cons option rest ih =>
      obtain ⟨first, others⟩ := List.forall_mem_cons.mp plain
      by_cases now : Taken option
      · obtain ⟨status, ends⟩ := ih others fun later => refused (List.forall_mem_cons.mpr ⟨now, later⟩)
        refine ⟨status, fun vars => ?_⟩
        obtain ⟨after, died, files⟩ := ends (vars.assign option)
        refine ⟨after, ?_, files.trans (files_assign vars option)⟩
        rw [forEach_cons, setOption_taken first now]
        exact died
      · obtain ⟨status, ends⟩ := setOption_refused first now host
        exact ⟨status, fun vars => ⟨vars, by rw [forEach_cons, ends], rfl⟩⟩

end Options

section CommandLines

variable {host : Host} {vars : Variables} {args : List Text} {files : Files} {asn : Text}

/-- The texts that bash evaluates or splits later are plain. -/
structure Variables.Plain (vars : Variables) : Prop where
  prepend : IsConstant vars.prepend
  origin : IsConstant vars.origin
  poisons : ∀ char ∈ vars.poisons, isSpecial char = false

/-- Poisons are not combined with an origin or a number of prepends. -/
def Variables.Compatible (vars : Variables) : Prop :=
  vars.poisons ≠ [] → valueOf vars.origin = 0 ∧ valueOf vars.prepend = 0

/-- The mux that is named has a device. -/
def Known (host : Host) (mux : Text) : Prop := mux = "all".toList ∨ orUnset (host.mux2dev.get? mux) ≠ "unset".toList

def Configured (host : Host) (routePrefix : Text) : Prop :=
  ∃ prefixes prefixes6, host.prefixDb = some prefixes ∧ host.prefix6Db = some prefixes6 ∧
    routePrefix ∈ prefixes ++ prefixes6

/-- The variables pass the checks. -/
structure Allowed (host : Host) (vars : Variables) : Prop where
  mux : Known host vars.mux
  origin : 0 ≤ valueOf vars.origin
  prepend : 0 ≤ valueOf vars.prepend ∧ valueOf vars.prepend ≤ 3
  compatible : vars.Compatible

theorem any_isDigit_constant (constant : IsConstant asn) : asn.any Char.isDigit = true := by
  have digits {digits : Text} {size : Nat} (read : constant?.magnitude? digits = some size) : digits.any Char.isDigit = true := by
    obtain ⟨nonempty, all⟩ := unsigned?_spec (magnitude?_spec read).1
    obtain ⟨first, others, rfl⟩ := List.exists_cons_of_ne_nil nonempty
    exact List.any_eq_true.mpr ⟨first, List.mem_cons_self, all first List.mem_cons_self⟩
  obtain ⟨value, found⟩ := constant
  unfold constant? at found
  split at found
  · obtain ⟨size, read, _⟩ := Option.map_eq_some_iff.mp found
    rw [List.any_cons, digits read, Bool.or_true]
  · obtain ⟨size, read, _⟩ := Option.map_eq_some_iff.mp found
    exact digits read

theorem checks_checkMux (mux : Text) : Checks (checkMux host mux) vars (Known host mux) := by
  unfold checkMux Known
  refine ⟨fun known => ?_, fun unknown => ?_⟩
  · rw [if_neg fun both => known.elim both.1 fun device => device both.2]
    rfl
  · rw [if_pos (by simpa using unknown)]
    rfl

theorem checks_checkValidAsn (constant : IsConstant asn) : Checks (checkValidAsn host asn) vars (0 ≤ valueOf asn) := by
  have asked : checkValidAsn host asn vars =
      (if valueOf asn ≠ 0 then dieIf (satisfies host asn (· < 1)) else pure ()) vars := by
    unfold checkValidAsn
    rw [bind_result, satisfies_constant constant, any_isDigit_constant constant]
    by_cases nonzero : valueOf asn ≠ 0
    · simp [nonzero]
    · simp [nonzero]
  have positive := checks_dieIf (@satisfies_constant host asn (· < 1) constant vars)
  refine ⟨fun holds => asked.trans ?_, fun fails => asked.trans ?_⟩
  · by_cases nonzero : valueOf asn ≠ 0
    · rw [if_pos nonzero]
      exact positive.passed (decide_eq_false (by omega))
    · rw [if_neg nonzero]
      rfl
  · rw [if_pos (by omega)]
    exact positive.died fun large => absurd (of_decide_eq_false large) (by omega)

theorem checks_checkPrepend (constant : IsConstant vars.prepend) :
    Checks (checkPrepend host) vars (0 ≤ valueOf vars.prepend ∧ valueOf vars.prepend ≤ 3) := by
  have low : Checks (dieIf do satisfies host (← get).prepend (· < 0)) vars (decide (valueOf vars.prepend < 0) = false) :=
    checks_dieIf (satisfies_constant constant vars)
  have high : Checks (dieIf do satisfies host (← get).prepend (· > 3)) vars (decide (valueOf vars.prepend > 3) = false) :=
    checks_dieIf (satisfies_constant constant vars)
  refine (low.bind high).of_iff ?_
  simp only [decide_eq_false_iff_not]
  omega

theorem checks_checkPoisons (plain : vars.Plain) : Checks (checkPoisons host) vars vars.Compatible := by
  have origin : Checks (dieIf do satisfies host (← get).origin (· ≠ 0)) vars (decide (valueOf vars.origin ≠ 0) = false) :=
    checks_dieIf (satisfies_constant plain.origin vars)
  have prepend : Checks (dieIf do satisfies host (← get).prepend (· ≠ 0)) vars (decide (valueOf vars.prepend ≠ 0) = false) :=
    checks_dieIf (satisfies_constant plain.prepend vars)
  by_cases poisons : vars.poisons = []
  · have skipped : checkPoisons host vars = .ok () vars := by
      unfold checkPoisons
      rw [bind_result, get_apply]
      simp [poisons]
    exact ⟨fun _ => skipped, fun incompatible => absurd (fun given => absurd poisons given) incompatible⟩
  · have asked : checkPoisons host vars = ((dieIf do satisfies host (← get).origin (· ≠ 0)) >>= fun _ =>
        dieIf do satisfies host (← get).prepend (· ≠ 0)) vars := by
      unfold checkPoisons
      rw [bind_result, get_apply]
      simp only [if_pos (show vars.poisons ≠ [] from poisons)]
    have both : Checks _ vars vars.Compatible := (origin.bind prepend).of_iff (by simp [Variables.Compatible, poisons])
    exact ⟨fun compatible => asked.trans (both.passed compatible), fun not => asked.trans (both.died not)⟩

theorem Checks.get {next : Variables → Script Unit} {accepts : Prop} (checks : Checks (next vars) vars accepts) :
    Checks (get >>= next) vars accepts := ⟨checks.passed, checks.died⟩

theorem checks_checkOptions (plain : vars.Plain) : Checks (checkOptions host) vars (Allowed host vars) := by
  have numbers := (@checks_checkPrepend host vars plain.prepend).bind (@checks_checkPoisons host vars plain)
  have origin : Checks (get >>= fun vars => checkValidAsn host vars.origin >>= fun _ => checkPrepend host >>= fun _ =>
      checkPoisons host) vars _ := Checks.get ((checks_checkValidAsn plain.origin).bind numbers)
  have whole : Checks (checkOptions host) vars _ := Checks.get ((checks_checkMux vars.mux).bind origin)
  refine whole.of_iff ⟨fun all => ⟨all.1, all.2.1, all.2.2.1, all.2.2.2⟩, fun allowed => ?_⟩
  exact ⟨allowed.mux, allowed.origin, allowed.prepend, allowed.compatible⟩

theorem checks_checkPrefix (routePrefix : Text) : Checks (checkPrefix host routePrefix) vars (Configured host routePrefix) := by
  unfold Configured checkPrefix
  constructor
  · rintro ⟨prefixes, prefixes6, found, found6, member⟩
    simp only [found, found6, if_pos member]
    rfl
  · intro missing
    cases found : host.prefixDb with
    | none => rfl
    | some prefixes =>
        cases found6 : host.prefix6Db with
        | none => rfl
        | some prefixes6 =>
            simp only [if_neg fun member => missing ⟨prefixes, prefixes6, found, found6, member⟩]
            rfl

/-- The variables after the options. -/
def optioned (args : List Text) (files : Files) : Variables :=
  (getopts letters args).1.foldl Variables.assign { files := files }

/-- The script goes on to the command. -/
structure Accepts (host : Host) (args : List Text) : Prop where
  root : host.root = true
  options : ∀ option ∈ (getopts letters args).1, Taken option
  allowed : Allowed host (optioned args .empty)
  configured : Configured host (operand args)

theorem assign_files (vars : Variables) (option : Char × Text) (files : Files) :
    ({ vars with files := files } : Variables).assign option = { vars.assign option with files := files } := by
  unfold Variables.assign
  split <;> rfl

theorem optioned_files (args : List Text) (files : Files) :
    optioned args files = { optioned args .empty with files := files } := by
  have general (options : List (Char × Text)) (vars : Variables) :
      options.foldl Variables.assign { vars with files := files } =
        { options.foldl Variables.assign vars with files := files } := by
    induction options generalizing vars with
    | nil => rfl
    | cons option rest ih =>
        rw [List.foldl_cons, List.foldl_cons, assign_files]
        exact ih (vars.assign option)
  exact general _ { files := .empty }

theorem optioned_mux (args : List Text) (files : Files) : (optioned args files).mux = (optioned args .empty).mux := by
  rw [optioned_files]

theorem Variables.Plain.assign {option : Char × Text} (plain : vars.Plain) (also : PlainOption option) :
    (vars.assign option).Plain := by
  unfold Variables.assign
  split
  · exact ⟨plain.prepend, plain.origin, plain.poisons⟩
  · next given => exact ⟨plain.prepend, plain.origin, also.literal (by simp [given])⟩
  · next given => exact ⟨also.number (by simp [given]), plain.origin, plain.poisons⟩
  · next given => exact ⟨plain.prepend, also.number (by simp [given]), plain.poisons⟩
  · exact ⟨plain.prepend, plain.origin, plain.poisons⟩
  · exact ⟨plain.prepend, plain.origin, plain.poisons⟩
  · exact plain

theorem plain_optioned (plain : PlainArgs args) (files : Files) : (optioned args files).Plain := by
  have general {options : List (Char × Text)} (each : ∀ option ∈ options, PlainOption option) {vars : Variables}
      (initial : vars.Plain) : (options.foldl Variables.assign vars).Plain := by
    induction options generalizing vars with
    | nil => exact initial
    | cons option rest ih =>
        obtain ⟨first, later⟩ := List.forall_mem_cons.mp each
        exact ih later (initial.assign first)
  have zero : IsConstant "0".toList := ⟨0, by decide⟩
  exact general plain ⟨zero, zero, List.forall_mem_nil _⟩

theorem prepare_rooted (root : host.root = true) (args : List Text) (vars : Variables) : prepare host args vars =
    (forEach (setOption host) (getopts letters args).1 >>= fun _ => checkOptions host >>= fun _ =>
      checkPrefix host (operand args)) vars := by
  unfold prepare
  rw [if_neg (by simp [root])]

theorem prepare_taken (plain : PlainArgs args) (root : host.root = true)
    (options : ∀ option ∈ (getopts letters args).1, Taken option) (files : Files) : prepare host args { files := files } =
      (checkOptions host >>= fun _ => checkPrefix host (operand args)) (optioned args files) := by
  rw [prepare_rooted root, bind_result, setOptions_taken plain options]
  rfl

theorem checks_prepared (plain : PlainArgs args) (files : Files) :
    Checks (checkOptions host >>= fun _ => checkPrefix host (operand args)) (optioned args files)
      (Allowed host (optioned args files) ∧ Configured host (operand args)) :=
  (checks_checkOptions (plain_optioned plain files)).bind (checks_checkPrefix (operand args))

theorem allowed_files (host : Host) (args : List Text) (files : Files) :
    Allowed host (optioned args files) ↔ Allowed host (optioned args .empty) := by
  rw [optioned_files]
  constructor <;> exact fun ⟨mux, origin, prepend, compatible⟩ => ⟨mux, origin, prepend, compatible⟩

theorem prepare_accepted (plain : PlainArgs args) (accepts : Accepts host args) (files : Files) :
    prepare host args { files := files } = .ok () (optioned args files) :=
  (prepare_taken plain accepts.root accepts.options files).trans
    ((checks_prepared plain files).passed ⟨(allowed_files host args files).mpr accepts.allowed, accepts.configured⟩)

/-- A plain command line that is not accepted is refused whatever the files are, and leaves them. -/
theorem prepare_refused (plain : PlainArgs args) (refused : ¬ Accepts host args) :
    ∃ status, ∀ files, ∃ after, prepare host args { files := files } = .error status after ∧ after.files = files := by
  cases root : host.root with
  | false =>
      refine ⟨1, fun files => ⟨{ files := files }, ?_, rfl⟩⟩
      unfold prepare
      rw [if_pos root]
      rfl
  | true =>
      by_cases options : ∀ option ∈ (getopts letters args).1, Taken option
      · refine ⟨1, fun files => ⟨optioned args files, ?_, by rw [optioned_files]⟩⟩
        rw [prepare_taken plain root options]
        exact (checks_prepared plain files).died fun all =>
          refused ⟨root, options, (allowed_files host args files).mp all.1, all.2⟩
      · obtain ⟨status, ends⟩ := setOptions_refused plain options host
        refine ⟨status, fun files => ?_⟩
        obtain ⟨after, died, same⟩ := ends { files := files }
        exact ⟨after, by rw [prepare_rooted root, bind_result, died], same⟩

/-- The options pass the checks. -/
def Passes (host : Host) (args : List Text) (files : Files) : Prop :=
  ∃ vars, prepare host args { files := files } = .ok () vars

theorem passes_iff (plain : PlainArgs args) : Passes host args files ↔ Accepts host args := by
  refine ⟨fun passes => ?_, fun accepts => ⟨_, prepare_accepted plain accepts files⟩⟩
  by_contra refused
  obtain ⟨status, ends⟩ := prepare_refused plain refused
  obtain ⟨after, died, _⟩ := ends files
  obtain ⟨vars, passed⟩ := passes
  rw [died] at passed
  cases passed

end CommandLines

end ActiveBgp.Peering.PeeringPrefix
