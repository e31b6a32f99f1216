import FormulaStepper.Evaluation.Immediate
import FormulaStepper.Launch.Config
import FormulaStepper.Proofs.Evaluation.Correspondence
import FormulaStepper.Proofs.Grammar.Subformulas
import FormulaStepper.Proofs.Grammar.Writing

/-!
# Names of variables and formulas

A variable can be set under a name just if the name by itself is read as a
reference to it (`isVariableName_iff_isReference`). Names are checked apart from
the reading of formulas, with a test and keywords of their own, and both ways of
telling a name come down to the names that have a token (`TokenKind.Writable`).

A name by itself is a formula, whose tree is a leaf (`parse_reference`), so its value
is that of the variable (`evaluateText_of_reference`). The variables of a configuration
have the values that it gives to their names, if no name occurs twice in it, which holds
of every configuration that is read (`LaunchConfig.distinct_of_read`).
-/

set_option autoImplicit false

namespace FormulaStepper

open Formula Json Text

/-! ## Names that are references -/

section References

variable {name : String}

/-- The text of the name is read as the name, and as nothing else. -/
def IsReference (name : String) : Prop :=
  ∃ tokens, tokenize name.toList = .ok tokens ∧
    tokens.map Token.kind = [.identifier name, .finish]

/-- The leaf that refers to a variable in a formula that is nothing but its name. -/
def reference (name : String) : Node :=
  .mk (.identifier name) [] name ⟨0, Utf8.size name.toList⟩

theorem hasNameForm_iff {characters : List Char} :
    hasNameForm characters = true ↔ HasNameForm characters := by
  cases characters with
  | nil => exact ⟨fun absent => (by cases absent), fun ⟨_, _, absent, _⟩ => (by cases absent)⟩
  | cons c more =>
    rw [hasNameForm, Bool.and_eq_true, List.all_eq_true]
    constructor
    · exact fun form => ⟨c, more, rfl, form⟩
    · rintro ⟨_, _, same, form⟩
      cases same
      exact form

/-- The names of variables are those that have a token. -/
theorem isVariableName_iff_writable :
    isVariableName name = true ↔ (TokenKind.identifier name).Writable := by
  rw [isVariableName, Bool.and_eq_true, hasNameForm_iff, Bool.not_eq_true',
    List.contains_eq_mem, decide_eq_false_iff_not]
  rfl

/-- A word that is a name is no keyword. -/
theorem eq_toList_of_wordKind {word : List Char} (named : wordKind word = .identifier name) :
    word = name.toList ∧ name ∉ ["and", "or", "not"] := by
  have spelled : word = name.toList := by
    unfold wordKind at named
    repeat' split at named
    all_goals cases named
    exact String.toList_ofList.symm
  subst spelled
  refine ⟨rfl, fun keyword => ?_⟩
  simp only [List.mem_cons, List.not_mem_nil, or_false] at keyword
  rcases keyword with rfl | rfl | rfl <;> cases named

theorem writable_of_scans {kind : TokenKind} {written rest : List Char}
    (scans : Scans kind written rest) (named : kind = .identifier name) :
    (TokenKind.identifier name).Writable := by
  cases scans with
  | @word c more _ start all longest =>
    obtain ⟨word, no_keyword⟩ := eq_toList_of_wordKind named
    exact ⟨⟨c, more, word.symm, start, all⟩, no_keyword⟩
  | symbol no_word longest => cases named
  | integer some_digits all longest no_places fits => cases named
  | decimal some_digits all some_places all_places longest => cases named
  | string longest => cases named

theorem lexes_of_writable (writable : (TokenKind.identifier name).Writable) :
    Lexes 0 name.toList [⟨.identifier name, ⟨0, Utf8.size name.toList⟩⟩] := by
  have lexes : Lexes 0 _ [⟨_, ⟨0, 0 + _⟩⟩] := writable.scans.lexes .none
  rwa [List.append_nil, Nat.zero_add] at lexes

/-- **The names of variables are the names that formulas can refer to.** -/
theorem isVariableName_iff_isReference : isVariableName name = true ↔ IsReference name := by
  rw [isVariableName_iff_writable]
  constructor
  · intro writable
    exact ⟨_, tokenize_eq_ok_iff.mpr ⟨_, lexes_of_writable writable, rfl⟩, rfl⟩
  · rintro ⟨tokens, read, kinds⟩
    obtain ⟨body, lexes, rfl⟩ := tokenize_eq_ok_iff.mp read
    have closed : body.map Token.kind ++ [.finish] = [.identifier name] ++ [.finish] := by
      rw [List.map_append] at kinds
      exact kinds
    obtain ⟨token, rfl, named⟩ := List.map_eq_singleton_iff.mp (List.append_cancel_right closed)
    exact writable_of_scans (lexes.scans_slice (List.mem_singleton_self token)) named

/-- The names of functions are no exception. -/
theorem isReference_of_function (function : Function) : IsReference function.name := by
  rw [← isVariableName_iff_isReference]
  cases function <;> decide

end References

/-! ## Names as formulas -/

section Reading

variable {name : String} {value : Value} {environment : Environment}

theorem over_identifier (name : String) :
    Node.over name.toList (.identifier name) [] ⟨0, Utf8.size name.toList⟩ =
      reference name := by
  have whole : slice ([] ++ name.toList ++ []) ⟨0, 0 + Utf8.size name.toList⟩ = name.toList :=
    slice_whole_piece [] name.toList []
  rw [List.nil_append, List.append_nil, Nat.zero_add] at whole
  rw [Node.over, whole, String.ofList_toList, reference]

theorem derives_reference (name : String) :
    Derives name.toList .disjunction [⟨.identifier name, ⟨0, Utf8.size name.toList⟩⟩]
      (reference name) 0 := by
  have sign : Derives name.toList .sign [⟨.identifier name, ⟨0, Utf8.size name.toList⟩⟩]
      (.over name.toList (.identifier name) [] ⟨0, Utf8.size name.toList⟩) 0 :=
    .tighter (.tighter .identifier)
  rw [← over_identifier]
  exact sign.loosen

/-- **A name by itself is a formula**, and its tree is a leaf. -/
theorem parse_reference (referred : IsReference name) : parse name = .ok (reference name) := by
  have writable := isVariableName_iff_writable.mp (isVariableName_iff_isReference.mpr referred)
  have low : (reference name).height ≤ maxHeight := (by decide : 1 ≤ maxHeight)
  exact parse_eq_ok_iff.mpr
    ⟨_, 0, lexes_of_writable writable, derives_reference name, Nat.zero_le _, low⟩

/-- The value of a name by itself is that of the variable. -/
theorem evaluateText_of_reference (referred : IsReference name)
    (held : environment name = some value) : evaluateText environment name = .ok value := by
  have outcome : ((reference name).account environment []).outcome = .ok value := by
    simp only [reference, Node.account, held, Account.visit, Account.shows, bind, Account.andThen]
    rfl
  rw [evaluateText, parse_reference referred]
  simp only
  rw [Node.evaluate_eq_transcript,
    Evaluation.transcript_ready environment (derives_reference name).wellFormed, outcome]
  rfl

end Reading

/-! ## Configurations -/

namespace LaunchConfig

variable {config : LaunchConfig} {bindings : Variables}

/-- No two variables of the configuration have the same name. -/
def Distinct (config : LaunchConfig) : Prop :=
  (config.bindings.map Prod.fst).Nodup

/-- A name with the value of its JSON value. -/
def setting (entry : String × Json) : String × Value :=
  (entry.1, .ofJson entry.2)

theorem addVariables_eq_ok_iff {before after : Variables} {entries : List (String × Json)} :
    addVariables before entries = .ok after ↔
      (∀ entry ∈ entries, isVariableName entry.1 = true) ∧ after =
        (entries.map setting).foldl (fun held pair => held.insert pair.1 pair.2) before := by
  induction entries generalizing before with
  | nil =>
    rw [addVariables, Except.ok.injEq]
    exact ⟨fun same => ⟨List.forall_mem_nil _, same.symm⟩, fun ⟨_, same⟩ => same.symm⟩
  | cons entry entries ih =>
    rw [addVariables, List.forall_mem_cons, List.map_cons, List.foldl_cons, and_assoc]
    split
    · next named =>
      rw [ih, setting]
      exact (and_iff_right named).symm
    · next refused =>
      exact ⟨fun absent => (by cases absent), fun ⟨named, _⟩ => absurd named refused⟩

/-- A configuration gives variables just if all its names are names of variables. -/
theorem toVariables_eq_ok_iff :
    config.toVariables = .ok bindings ↔
      (∀ entry ∈ config.bindings, isVariableName entry.1 = true) ∧
        bindings = .ofList (config.bindings.map setting) := by
  have filled : (config.bindings.map setting).foldl (fun held pair => held.insert pair.1 pair.2)
      Variables.empty = .ofList (config.bindings.map setting) :=
    List.foldl_hom Variables.mk fun _ _ => rfl
  rw [toVariables, addVariables_eq_ok_iff, filled]

/-- The variables have the values that the configuration gives to their names. -/
theorem get?_of_toVariables (distinct : config.Distinct) (made : config.toVariables = .ok bindings)
    {name : String} {json : Json} (member : (name, json) ∈ config.bindings) :
    bindings.get? name = some (.ofJson json) := by
  obtain ⟨-, rfl⟩ := toVariables_eq_ok_iff.mp made
  have same_names : (config.bindings.map setting).map Prod.fst = config.bindings.map Prod.fst :=
    List.map_map
  exact Dictionary.lookup_ofList_of_mem (same_names ▸ distinct)
    (List.mem_map_of_mem (f := setting) member)

/-! ### What is read as a configuration -/

/-- The variables that were read stand in the order of their names. -/
def Members.Ordered (members : Members) : Prop :=
  ∀ bindings ∈ members.bindings, (bindings.map Prod.fst).Pairwise (· < ·)

theorem pairwise_of_readVariables {members : List (Option String × Draft)}
    {before after : List (String × Json)} (read : readVariables before members = .ok after)
    (ordered : (before.map Prod.fst).Pairwise (· < ·)) :
    (after.map Prod.fst).Pairwise (· < ·) := by
  induction members generalizing before with
  | nil =>
    cases read
    exact ordered
  | cons member members ih =>
    obtain ⟨name, -, read⟩ := exists_of_bind_eq_ok read
    obtain ⟨value, -, read⟩ := exists_of_bind_eq_ok read
    exact ih read (Dictionary.pairwise_keys_insert name value ordered)

theorem pairwise_of_asVariables {draft : Draft} {bindings : List (String × Json)}
    (read : asVariables draft = .ok bindings) : (bindings.map Prod.fst).Pairwise (· < ·) := by
  cases draft with
  | object members closed =>
    obtain ⟨found, read, rest⟩ := exists_of_bind_eq_ok read
    obtain ⟨-, -, same⟩ := exists_of_bind_eq_ok rest
    cases same
    exact pairwise_of_readVariables read .nil
  | _ => cases read

theorem Members.Ordered.readMember {members after : Members} {name : String} {value : Draft}
    (ordered : members.Ordered) (read : LaunchConfig.readMember members name value = .ok after) :
    after.Ordered := by
  unfold LaunchConfig.readMember at read
  split at read
  · obtain ⟨-, -, read⟩ := exists_of_bind_eq_ok read
    obtain ⟨formula, -, read⟩ := exists_of_bind_eq_ok read
    cases read
    exact ordered
  · obtain ⟨-, -, read⟩ := exists_of_bind_eq_ok read
    obtain ⟨bindings, found, read⟩ := exists_of_bind_eq_ok read
    cases read
    rintro _ ⟨⟩
    exact pairwise_of_asVariables found
  · obtain ⟨-, -, read⟩ := exists_of_bind_eq_ok read
    obtain ⟨stopOnEntry, -, read⟩ := exists_of_bind_eq_ok read
    cases read
    exact ordered
  · obtain ⟨-, -, read⟩ := exists_of_bind_eq_ok read
    cases read
    exact ordered

theorem Members.Ordered.readMembers {members : List (Option String × Draft)}
    {before after : Members} (ordered : before.Ordered)
    (read : LaunchConfig.readMembers before members = .ok after) : after.Ordered := by
  induction members generalizing before with
  | nil =>
    cases read
    exact ordered
  | cons member members ih =>
    obtain ⟨name, -, read⟩ := exists_of_bind_eq_ok read
    obtain ⟨next, found, read⟩ := exists_of_bind_eq_ok read
    exact ih (ordered.readMember found) read

theorem Members.Ordered.ofMembers {members : Members} (ordered : members.Ordered)
    (made : LaunchConfig.ofMembers members = .ok config) : config.Distinct := by
  unfold LaunchConfig.ofMembers at made
  split at made
  · cases made
  · cases made
    cases given : members.bindings with
    | none => exact List.nodup_nil
    | some bindings => exact (ordered bindings given).imp String.ne_of_lt

theorem exists_of_readItem {α : Type} {read : Draft → Except ReadError α} {closed : Bool}
    {items rest : List Draft} {value : α}
    (found : readItem read closed items = .ok (some value, rest)) : ∃ item, read item = .ok value := by
  cases items with
  | nil =>
    obtain ⟨-, -, found⟩ := exists_of_bind_eq_ok found
    cases found
  | cons item items =>
    obtain ⟨value, read, found⟩ := exists_of_bind_eq_ok found
    cases found
    exact ⟨item, read⟩

theorem distinct_of_readItems {items : List Draft} {closed : Bool}
    (read : readItems items closed = .ok config) : config.Distinct := by
  obtain ⟨⟨formula, afterFormula⟩, -, read⟩ := exists_of_bind_eq_ok read
  cases formula with
  | none => cases read
  | some formula =>
    obtain ⟨⟨bindings, afterBindings⟩, found, read⟩ := exists_of_bind_eq_ok read
    obtain ⟨⟨stopOnEntry, afterAll⟩, -, read⟩ := exists_of_bind_eq_ok read
    dsimp only at read
    split at read
    · obtain ⟨-, -, made⟩ := exists_of_bind_eq_ok read
      refine Members.Ordered.ofMembers ?_ made
      rintro bindings rfl
      obtain ⟨item, read⟩ := exists_of_readItem found
      exact pairwise_of_asVariables read
    · cases read

/-- **What is read as a configuration names no variable twice.** -/
theorem distinct_of_read {draft : Draft} (found : read draft = .ok config) : config.Distinct := by
  cases draft with
  | object members closed =>
    obtain ⟨members, read, rest⟩ := exists_of_bind_eq_ok found
    obtain ⟨-, -, made⟩ := exists_of_bind_eq_ok rest
    have none_yet : Members.Ordered ⟨none, none, none⟩ := fun _ absent => (by cases absent)
    exact (none_yet.readMembers read).ofMembers made
  | array items closed => exact distinct_of_readItems found
  | _ => cases found

end LaunchConfig

/-- **Variables can be set under the names that formulas can refer to.** A name is
accepted just if its text is read as the name, without anything before or behind it. The
name is then a formula by itself, a leaf that refers to it, and the names of the
functions are among them. The variables of a configuration can be made just if all its
names are such names. If it names none twice, each name by itself then has the value of
the JSON value that the configuration gives to it. -/
theorem variable_names_are_references :
    (∀ name, isVariableName name = true ↔ IsReference name) ∧
      (∀ name, IsReference name → parse name = .ok (reference name)) ∧
      (∀ function : Function, IsReference function.name) ∧
      ∀ config : LaunchConfig,
        ((∃ bindings, config.toVariables = .ok bindings) ↔
          ∀ entry ∈ config.bindings, IsReference entry.1) ∧
        (config.Distinct → ∀ bindings, config.toVariables = .ok bindings →
          ∀ name json, (name, json) ∈ config.bindings →
            evaluateText bindings.environment name = .ok (.ofJson json)) := by
  refine ⟨fun _ => isVariableName_iff_isReference, fun _ => parse_reference,
    isReference_of_function, fun config => ⟨?_, fun distinct bindings made name json member => ?_⟩⟩
  · simp only [← isVariableName_iff_isReference]
    constructor
    · rintro ⟨bindings, made⟩
      exact (LaunchConfig.toVariables_eq_ok_iff.mp made).1
    · exact fun named => ⟨_, LaunchConfig.toVariables_eq_ok_iff.mpr ⟨named, rfl⟩⟩
  · have named : isVariableName name = true :=
      (LaunchConfig.toVariables_eq_ok_iff.mp made).1 (name, json) member
    exact evaluateText_of_reference (isVariableName_iff_isReference.mp named)
      (LaunchConfig.get?_of_toVariables distinct made member)

/-- A configuration with a variable that is named like a function. -/
def namedIf : LaunchConfig :=
  ⟨"if(if, _x1, 0)", [("_x1", .number (.int 2)), ("if", .array [.bool true, .null])], true⟩

/-- The variable has its value. A keyword, a name behind a blank and a letter beyond ASCII
are not read as names. -/
theorem value_of_variable_if :
    namedIf.Distinct ∧
      (∃ bindings, namedIf.toVariables = .ok bindings ∧
        parse "if" = .ok (.mk (.identifier "if") [] "if" ⟨0, 2⟩) ∧
        evaluateText bindings.environment "if" = .ok (.list [.int 1, .null])) ∧
      ∀ name ∈ ["and", " if", "é", ""], ¬ IsReference name := by
  obtain ⟨accepted, parsed, functions, configured⟩ := variable_names_are_references
  have distinct : namedIf.Distinct := by unfold LaunchConfig.Distinct; decide
  have named : ∀ entry ∈ namedIf.bindings, IsReference entry.1 := by
    simp only [namedIf, List.forall_mem_cons]
    exact ⟨(accepted "_x1").mp (by decide), functions .choose, List.forall_mem_nil _⟩
  obtain ⟨bindings, made⟩ := (configured namedIf).1.mpr named
  refine ⟨distinct, ⟨bindings, made, parsed "if" (functions .choose), ?_⟩, ?_⟩
  · exact (configured namedIf).2 distinct bindings made "if" (.array [.bool true, .null])
      (by simp [namedIf])
  · intro name other
    rw [← accepted]
    revert name
    decide

end FormulaStepper
