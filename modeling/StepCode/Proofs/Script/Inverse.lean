import StepCode.Proofs.Script.Accepted
import StepCode.Proofs.Script.Printing

/-!
# Parsing undoes printing

Scripts, helpers and bootstraps are parsed from their printed text, and whatever is parsed can be
printed and parsed once more.
-/

namespace StepCode

open Token (endsWord)

/-! ## Printed helpers -/

theorem newline_notMem_of_plain {chars : List Char} (plain : ∀ c ∈ chars, endsWord c = false) :
    '\n' ∉ chars := fun mem => nomatch plain _ mem

theorem newline_notMem_quote (s : String) : '\n' ∉ (Form.quote s).toList := by
  have plain : ∀ c, '\n' ∉ Form.quoteChar c := by
    intro c
    unfold Form.quoteChar
    split_ifs with quote slash newline
    · decide
    · decide
    · decide
    · decide
    · decide
    · simpa using Ne.symm newline
  simp [Form.quote, plain]

theorem newline_notMem_quotedNames (names : List String) :
    '\n' ∉ (quotedNames names).toList := by
  induction names with
  | nil => simp [quotedNames]
  | cons name names ih =>
      cases names with
      | nil => exact newline_notMem_quote name
      | cons other names => simp [quotedNames, newline_notMem_quote, ih]

theorem newline_notMem_number {x : Float} (readsBack : Number.ReadsBack x) :
    '\n' ∉ (Form.numberText x).toList := by
  have plain : Form.numberText x = Number.text x := by
    simp only [Form.numberText, readsBack.notNaN, readsBack.notInf, Bool.false_eq_true, if_false]
  rw [plain]
  exact newline_notMem_of_plain (Number.text_shape x).2

mutual

/-- Expressions are printed on one line. -/
theorem Expr.newline_notMem_print (expr : Expr) (wellFormed : expr.WellFormed) :
    '\n' ∉ expr.print.toList := by
  match expr with
  | .number x => exact newline_notMem_number wellFormed
  | .text s => exact newline_notMem_quote s
  | .bool true => decide
  | .bool false => decide
  | .var name => simp [Expr.print, newline_notMem_quote]
  | .param name => simp [Expr.print, newline_notMem_quote]
  | .helper name args =>
      simp [Expr.print, newline_notMem_of_plain wellFormed.1.plain,
        newline_notMem_printExprs args wellFormed.2]
  | .report opcode args =>
      simp [Expr.print, newline_notMem_quote, newline_notMem_printArgs args wellFormed]
  | .choose cond yes no =>
      simp [Expr.print, cond.newline_notMem_print wellFormed.1,
        yes.newline_notMem_print wellFormed.2.1, no.newline_notMem_print wellFormed.2.2]
  | .builtin op args =>
      simp [Expr.print, newline_notMem_of_plain op.isSymbol_symbol.plain,
        newline_notMem_printExprs args wellFormed.2]

theorem newline_notMem_printExprs (args : List Expr) (wellFormed : ExprsWellFormed args) :
    '\n' ∉ (printExprs args).toList := by
  match args with
  | [] => simp [printExprs]
  | arg :: args =>
      simp [printExprs, arg.newline_notMem_print wellFormed.1,
        newline_notMem_printExprs args wellFormed.2]

theorem newline_notMem_printArgs (args : List (String × Expr)) (wellFormed : ArgsWellFormed args) :
    '\n' ∉ (printArgs args).toList := by
  match args with
  | [] => simp [printArgs]
  | (name, value) :: args =>
      simp [printArgs, newline_notMem_quote, value.newline_notMem_print wellFormed.1,
        newline_notMem_printArgs args wellFormed.2]

end

/-- A text on one line is not shifted. -/
theorem shiftLines_of_notMem {s : String} (single : '\n' ∉ s.toList) : shiftLines s = s := by
  have same : s.toList.flatMap (fun c => if c = '\n' then ['\n', ' ', ' '] else [c]) = s.toList := by
    generalize s.toList = chars at single
    induction chars with
    | nil => rfl
    | cons c rest ih =>
        obtain ⟨here, later⟩ := not_or.mp (mt List.mem_cons.mpr single)
        simp [Ne.symm here, ih later]
  rw [shiftLines, same, String.ofList_toList]

theorem shiftLines_append (s t : String) : shiftLines (s ++ t) = shiftLines s ++ shiftLines t := by
  simp [shiftLines]

/-- The text of a helper, with its body any number of levels deep. -/
theorem Helper.spells_at (depth : Nat) {helper : Helper} (isSymbol : IsSymbol helper.name)
    (wellFormed : helper.body.WellFormed) :
    Spells false ("(helper " ++ helper.name ++ " (" ++ quotedNames helper.params ++ ")" ++ "\n" ++
      indent depth ++ helper.body.print ++ ")").toList helper.tree.lexemes := by
  have body := (spells_indent depth).append_closed (helper.body.spells_print wellFormed)
  have list := SpellsItems.words (by decide : IsSymbol "helper")
    (.cons isBlank_space (Tree.spells_symbol isSymbol)
      (.cons isBlank_space (spells_params helper.params) (.cons isBlank_newline body .nil)))
  simpa [Helper.tree] using list

theorem Helper.spells_print {helper : Helper} (isSymbol : IsSymbol helper.name)
    (wellFormed : helper.body.WellFormed) :
    Spells false helper.print.toList helper.tree.lexemes := by
  simpa [Helper.print] using Helper.spells_at 1 isSymbol wellFormed

/-- The only line of a helper that is shifted is its body. -/
theorem Helper.shiftLines_print {helper : Helper} (isSymbol : IsSymbol helper.name)
    (wellFormed : helper.body.WellFormed) :
    shiftLines helper.print = "(helper " ++ helper.name ++ " (" ++ quotedNames helper.params ++
      ")" ++ "\n" ++ indent 2 ++ helper.body.print ++ ")" := by
  have name := shiftLines_of_notMem (newline_notMem_of_plain isSymbol.plain)
  have params := shiftLines_of_notMem (newline_notMem_quotedNames helper.params)
  have body := shiftLines_of_notMem (helper.body.newline_notMem_print wellFormed)
  have opening : shiftLines "(helper " = "(helper " := by decide
  have between : shiftLines " (" = " (" := by decide
  have closing : shiftLines ")" = ")" := by decide
  have line : shiftLines ")\n" ++ shiftLines (indent 1) = ")" ++ "\n" ++ indent 2 := by decide
  calc shiftLines helper.print
      = "(helper " ++ helper.name ++ " (" ++ quotedNames helper.params ++
          (shiftLines ")\n" ++ shiftLines (indent 1)) ++ helper.body.print ++ ")" := by
        simp only [Helper.print, shiftLines_append, name, params, body, opening, between, closing,
          String.append_assoc]
    _ = _ := by rw [line]; simp only [String.append_assoc]

theorem spells_printHelpers {helpers : List Helper}
    (wellFormed : ∀ helper ∈ helpers, IsSymbol helper.name ∧ helper.body.WellFormed) :
    SpellsItems (printHelpers helpers).toList (helpers.map Helper.tree) := by
  induction helpers with
  | nil => exact .nil
  | cons helper rest ih =>
      obtain ⟨⟨isSymbol, isBody⟩, later⟩ := List.forall_mem_cons.mp wellFormed
      have first := (spells_indent 1).append_closed (Helper.spells_at 2 isSymbol isBody)
      rw [← Helper.shiftLines_print isSymbol isBody] at first
      simpa [printHelpers] using SpellsItems.cons isBlank_newline first (ih later)

theorem Bootstrap.spells_print {bootstrap : Bootstrap}
    (wellFormed : ∀ helper ∈ bootstrap.helpers, IsSymbol helper.name ∧ helper.body.WellFormed) :
    Spells false bootstrap.print.toList bootstrap.tree.lexemes := by
  have list := SpellsItems.words (by decide : IsSymbol "bootstrap")
    ((spells_printHelpers wellFormed).text bootstrap.version)
  simpa [Bootstrap.print, Bootstrap.tree] using list

/-! ## Round trips -/

/-- Parsing undoes printing for one kind of step code.  A value is well formed if it is regular and
its numbers are finite. -/
structure Inverts {α : Type} (parse : String → Parsed α) (print : α → String)
    (Regular : α → Prop) (numbers : α → List Float) : Prop where
  /-- What is well formed is parsed from its text. -/
  parse_print : ∀ value, Regular value → (∀ x ∈ numbers value, x.isFinite = true) →
    parse (print value) = .ok value
  /-- What is parsed is well formed, but for infinite numbers. -/
  regular_of_parse : ∀ source value, parse source = .ok value →
    Regular value ∧ ∀ x ∈ numbers value, x.isFinite = true ∨ x.isInf = true
  /-- Without infinite numbers in the source, what is parsed is parsed from its text again. -/
  parse_print_parse : ∀ source value, parse source = .ok value →
    (∀ forms, Form.readAll source = .ok forms → ∀ x ∈ Form.numbers forms, x.isInf = false) →
      parse (print value) = parse source

theorem Form.readAll_of_readSingle {source : String} {form : Form}
    (read : Form.readSingle source = .ok form) : Form.readAll source = .ok [form] := by
  obtain ⟨forms, isForms, single⟩ := bind_eq_ok.mp read
  match forms with
  | [only] =>
      obtain rfl := Except.ok.inj single
      exact isForms

/-- Enough for a kind that is parsed from a single form: regular values with finite numbers are parsed
from their text, and what is parsed comes from the tokens of the form. -/
theorem Inverts.of_forms {α : Type} {parse : String → Parsed α} {ofForm : Form → Parsed α}
    {print : α → String} {Regular : α → Prop} {numbers : α → List Float}
    (single : ∀ source, parse source = Form.readSingle source >>= ofForm)
    (printed : ∀ value, Regular value → (∀ x ∈ numbers value, x.isFinite = true) →
      parse (print value) = .ok value)
    (accepted : ∀ {tokens : List Lexeme}, KnowsSymbols tokens → ∀ {form : Form}, form.Within tokens →
      Gives (fun value => From tokens (Regular value) (numbers value)) (ofForm form)) :
    Inverts parse print Regular numbers := by
  -- the tokens that a value is parsed from are those of the one form of the source
  have origin : ∀ source value, parse source = .ok value → ∃ form,
      Form.readAll source = .ok [form] ∧
      From (Form.lexemes [form]) (Regular value) (numbers value) := by
    intro source value parsed
    rw [single] at parsed
    obtain ⟨form, read, isValue⟩ := bind_eq_ok.mp parsed
    have readAll := Form.readAll_of_readSingle read
    refine ⟨form, readAll, ?_⟩
    have within : form.Within (Form.lexemes [form]) := by
      rw [Form.Within, Form.lexemes_singleton]
      exact List.Subset.refl _
    exact accepted (fun s mem => Form.readAll_readable readAll mem) within value isValue
  refine ⟨printed, fun source value parsed => ?_, fun source value parsed notInf => ?_⟩
  · obtain ⟨form, readAll, regular, among⟩ := origin source value parsed
    refine ⟨regular, fun x mem => ?_⟩
    have notNaN : x.isNaN = false := Form.readAll_readable readAll (among x mem)
    cases isInf : x.isInf with
    | true => exact .inr rfl
    | false => exact .inl (Form.isFinite_of_number notNaN isInf)
  · obtain ⟨form, readAll, regular, among⟩ := origin source value parsed
    rw [parsed]
    refine printed value regular fun x mem => ?_
    have mem := Form.mem_numbers.mpr (among x mem)
    have notNaN : x.isNaN = false := Form.readAll_readable readAll (Form.mem_numbers.mp mem)
    exact Form.isFinite_of_number notNaN (notInf _ readAll x mem)

/-- Scripts, helpers and bootstraps are parsed from their printed text if they are well formed, and
whatever is parsed from a source without infinite numbers is well formed. -/
theorem parsing_undoes_printing :
    Inverts Script.parse Script.print Script.Regular Script.numbers ∧
    Inverts Helper.parse Helper.print Helper.Regular Helper.numbers ∧
    Inverts Bootstrap.parse Bootstrap.print Bootstrap.Regular Bootstrap.numbers := by
  refine ⟨.of_forms (fun _ => rfl) ?_ Script.from_ofForm, .of_forms (fun _ => rfl) ?_
    Helper.from_ofForm, .of_forms (fun _ => rfl) ?_ Bootstrap.from_ofForm⟩
  · intro script regular finite
    exact Script.parse_print (stmtsWellFormed_of_regular script.body regular finite)
  · intro helper regular finite
    have wellFormed := helper.body.wellFormed_of_regular regular.2 finite
    exact Helper.parse_of_spells wellFormed (Helper.spells_print regular.1 wellFormed)
  · intro bootstrap regular finite
    have wellFormed : ∀ helper ∈ bootstrap.helpers,
        IsSymbol helper.name ∧ helper.body.WellFormed := by
      intro helper mem
      refine ⟨(regular helper mem).1, helper.body.wellFormed_of_regular (regular helper mem).2 ?_⟩
      exact fun x isNumber => finite x (List.mem_flatMap.mpr ⟨helper, mem, isNumber⟩)
    exact Bootstrap.parse_of_spells (fun helper mem => (wellFormed helper mem).2)
      (Bootstrap.spells_print wellFormed)

/-- Texts that need escapes, a negative number, an empty branch and a branch that is left out. -/
def sampleScript : Script where
  params := ["name", "two\nlines"]
  body :=
    [.set "x \"y\"" (.builtin .join [.param "two\nlines", .text "\\ \t", .number (-0.5)]),
      .ifElse (.helper "less_than" [.var "x \"y\"", .number 3.0])
        [.times (.number 10.0) [.call "Zgo %s" [.bool true], .yield]] [],
      .ifElse (.choose (.bool false) (.text "") (.report "sensing_of" [("OF", .text "é")])) []
        [.forever [], .ret none],
      .op "looks_say" [("MESSAGE", .builtin .elapsed [])], .ret (some (.number 0.0))]

/-- It calls another helper, reports, and has a parameter with a quote in its name. -/
def sampleHelper : Helper where
  name := "half-of"
  params := ["a \"b\"", "c"]
  body := .choose (.helper "less_than" [.param "c", .number 0.25]) (.report "sensing_timer" [])
    (.builtin .div [.param "a \"b\"", .number (-2.0)])

def sampleBootstrap : Bootstrap where
  version := "0.1 \"draft\""
  helpers := [sampleHelper, { name := "less_than", params := [], body := .bool true }]

theorem sampleScript_regular : sampleScript.Regular :=
  ⟨⟨rfl, trivial, trivial, trivial, trivial⟩,
    ⟨⟨by decide, trivial, trivial, trivial⟩,
      ⟨⟨trivial, ⟨by decide, trivial, trivial⟩, trivial, trivial⟩, trivial⟩, trivial⟩,
    ⟨⟨trivial, trivial, trivial, trivial⟩, trivial, trivial, trivial, trivial⟩,
    ⟨⟨rfl, trivial⟩, trivial⟩, trivial, trivial⟩

theorem sampleHelper_regular : sampleHelper.Regular :=
  ⟨by decide, ⟨by decide, trivial, trivial, trivial⟩, trivial, rfl, trivial, trivial, trivial⟩

theorem samples_parse_back :
    Script.parse sampleScript.print = .ok sampleScript ∧
    Helper.parse sampleHelper.print = .ok sampleHelper ∧
    Bootstrap.parse sampleBootstrap.print = .ok sampleBootstrap := by
  have allRegular : sampleBootstrap.Regular :=
    List.forall_mem_cons.mpr ⟨sampleHelper_regular, List.forall_mem_singleton.mpr ⟨by decide, trivial⟩⟩
  obtain ⟨scripts, helpers, bootstraps⟩ := parsing_undoes_printing
  exact ⟨scripts.parse_print _ sampleScript_regular (by decide +kernel),
    helpers.parse_print _ sampleHelper_regular (by decide +kernel),
    bootstraps.parse_print _ allRegular (by decide +kernel)⟩

end StepCode
