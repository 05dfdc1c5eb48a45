import StepCode.Proofs.Decimal
import StepCode.Proofs.Decimal.ReadBack

/-!
# Size reduction keeps the forms

Whatever the reader accepts is put back together from its compact text: the words that it found are
words again, and blanks stand where two of them would run together.  Only infinite numbers come back
in another form, since they have no literal.
-/

namespace StepCode

open Token (endsWord ofWord startsNumber)

/-! ## What the scanner reads -/

/-- An atom that some text is read as: its symbols are words, and none of its numbers is NaN. -/
def Atom.Readable : Atom → Prop
  | .number x => x.isNaN = false
  | .text _ => True
  | .symbol s => IsSymbol s

namespace Token

/-- A word that is tried as a number is not the name of one. -/
theorem readName_of_startsNumber {chars : List Char} (starts : startsNumber chars = true) :
    Decimal.readName (Decimal.splitSign chars).2 = none := by
  match chars with
  | [] => simp [startsNumber] at starts
  | [c] =>
      have digit : c.isDigit = true := by simpa [startsNumber] using starts
      unfold Decimal.splitSign
      split
      next sign =>
        obtain ⟨rfl, -⟩ := List.cons.inj sign
        simp at digit
      next sign =>
        obtain ⟨rfl, -⟩ := List.cons.inj sign
        simp at digit
      next => exact Decimal.readName_eq_none _ (.inl digit)
  | c :: d :: rest =>
      simp only [startsNumber, Bool.or_eq_true, Bool.and_eq_true, beq_iff_eq] at starts
      unfold Decimal.splitSign
      split
      next sign =>
        obtain ⟨rfl, rfl⟩ := List.cons.inj sign
        exact Decimal.readName_eq_none _ (by simpa using starts)
      next sign =>
        obtain ⟨rfl, rfl⟩ := List.cons.inj sign
        exact Decimal.readName_eq_none _ (by simpa using starts)
      next noMinus noPlus =>
        refine Decimal.readName_eq_none _ ?_
        rcases starts with digit | ⟨(rfl | rfl) | rfl, -⟩
        · exact .inl digit
        · exact absurd rfl (noMinus _)
        · exact absurd rfl (noPlus _)
        · exact .inr rfl

/-- A word that has no end in it is read as a number or as the symbol that it is. -/
theorem ofWord_readable {chars : List Char} (nonempty : chars ≠ [])
    (plain : ∀ c ∈ chars, endsWord c = false) : (ofWord chars).Readable := by
  have symbol : ofWord chars = .symbol (String.ofList chars) → (ofWord chars).Readable := by
    intro isSymbol
    rw [isSymbol]
    exact ⟨by simpa using nonempty, by simpa using plain, by simpa using isSymbol⟩
  by_cases starts : startsNumber chars = true
  · cases read : Decimal.read? chars with
    | none => exact symbol (by simp [ofWord, starts, read])
    | some x =>
        simp only [ofWord, starts, read, if_true]
        exact Decimal.isNaN_of_read? read (readName_of_startsNumber starts)
  · exact symbol (by simp [ofWord, starts])

/-- The word that is being read is not empty and has no end in it. -/
def Mode.Plain : Mode → Prop
  | .word _ read => read ≠ [] ∧ ∀ c ∈ read, endsWord c = false
  | _ => True

/-- No atom is complete after its first character. -/
theorem begin_plain (c : Char) (at_ : Nat) :
    (begin c at_).2.Plain ∧ ∀ value span, (begin c at_).1 ≠ some (.atom value span) := by
  unfold begin
  split_ifs with blank comment opens closes quote
  · exact ⟨trivial, by simp⟩
  · exact ⟨trivial, by simp⟩
  · exact ⟨trivial, by simp⟩
  · exact ⟨trivial, by simp⟩
  · exact ⟨trivial, by simp⟩
  · exact ⟨⟨by simp, by simp [endsWord, blank, comment, opens, closes, quote]⟩, by simp⟩

theorem word_readable {start stop : Nat} {read : List Char} (plain : (Mode.word start read).Plain)
    {value : Atom} {span : Span} (isWord : Token.atom value span = word start stop read) :
    value.Readable := by
  obtain ⟨rfl, rfl⟩ := Token.atom.inj isWord
  exact ofWord_readable (by simpa using plain.1) (by simpa using plain.2)

/-- Every atom that the scanner finds is readable. -/
theorem scan_readable (mode : Mode) (at_ : Nat) (chars : List Char) (plain : mode.Plain)
    {value : Atom} {span : Span} (mem : .atom value span ∈ (scan mode at_ chars).list) :
    value.Readable := by
  induction chars generalizing mode at_ with
  | nil =>
      cases mode with
      | word start read =>
          simp only [scan, Tokens.cons, Tokens.done, List.mem_singleton] at mem
          exact word_readable plain mem
      | gap | comment | text | escape => simp [scan, Tokens.done, Tokens.failed] at mem
  | cons c rest ih =>
      obtain ⟨begun, noAtom⟩ := begin_plain c at_
      -- what a character outside any token begins is no atom, so only the rest can hold one
      have behind (mem : .atom value span ∈ (scan .gap at_ (c :: rest)).list) : value.Readable := by
        rw [scan] at mem
        generalize begin c at_ = start at begun noAtom mem
        obtain ⟨token, mode⟩ := start
        cases token with
        | some token =>
            rcases List.mem_cons.mp mem with rfl | later
            · exact absurd rfl (noAtom value span)
            · exact ih _ _ begun later
        | none => exact ih _ _ begun mem
      cases mode with
      | gap => exact behind mem
      | comment =>
          refine ih _ _ ?_ mem
          split <;> trivial
      | word start read =>
          rw [scan] at mem
          split at mem
          next ends =>
            rcases List.mem_cons.mp mem with isWord | later
            · exact word_readable plain isWord
            · exact behind later
          next inside =>
            refine ih (.word start (c :: read)) _ ⟨by simp, ?_⟩ mem
            simpa [inside] using plain.2
      | text start read =>
          rw [scan] at mem
          split_ifs at mem with closes escapes
          · rcases List.mem_cons.mp mem with isText | later
            · obtain ⟨rfl, rfl⟩ := Token.atom.inj isText
              trivial
            · exact ih .gap _ trivial later
          · exact ih (.escape start read) _ trivial mem
          · exact ih (.text start (c :: read)) _ trivial mem
      | escape start read =>
          rw [scan] at mem
          split at mem
          next plain _ => exact ih (.text start (plain :: read)) _ trivial mem
          next => simp [Tokens.failed] at mem

end Token

/-! ## What the reader puts together -/

theorem Form.trees_eq_map (forms : List Form) : Form.trees forms = forms.map Form.tree := by
  induction forms with
  | nil => rfl
  | cons form rest ih => simp [Form.trees, ih]

theorem Tree.allLexemes_eq_flatMap (trees : List Tree) :
    Tree.allLexemes trees = trees.flatMap Tree.lexemes := by
  induction trees with
  | nil => rfl
  | cons tree rest ih => simp [Tree.allLexemes, ih]

namespace Form

/-- The tokens of forms. -/
def lexemes (forms : List Form) : List Lexeme := Tree.allLexemes (Form.trees forms)

theorem lexemes_append (forms others : List Form) :
    lexemes (forms ++ others) = lexemes forms ++ lexemes others := by
  simp [lexemes, trees_eq_map, Tree.allLexemes_eq_flatMap]

theorem lexemes_singleton (form : Form) : lexemes [form] = form.tree.lexemes := by
  simp [lexemes, trees_eq_map, Tree.allLexemes_eq_flatMap]

/-- The tokens that have been used for an open list. -/
def Pending.lexemes (pending : Pending) : List Lexeme :=
  .openList :: Form.lexemes pending.items.reverse

/-- The tokens that have been used so far. -/
def Assembly.lexemes (assembly : Assembly) : List Lexeme :=
  Form.lexemes assembly.done.reverse ++ assembly.pending.reverse.flatMap Pending.lexemes

theorem Assembly.lexemes_push (form : Form) (assembly : Assembly) :
    (assembly.push form).lexemes = assembly.lexemes ++ form.tree.lexemes := by
  obtain ⟨pending, done⟩ := assembly
  cases pending with
  | nil => simp [push, lexemes, lexemes_append, lexemes_singleton]
  | cons inner outer =>
      simp [push, lexemes, Pending.lexemes, lexemes_append, lexemes_singleton]

/-- The forms that tokens are put together to have these tokens. -/
theorem lexemes_of_assemble {fault : Option ParseError} {assembly : Assembly} {tokens : List Token}
    {forms : List Form} (assembled : assemble fault assembly tokens = .ok forms) :
    lexemes forms = assembly.lexemes ++ tokens.map Token.lexeme := by
  induction tokens generalizing assembly with
  | nil =>
      obtain ⟨pending, done⟩ := assembly
      cases fault <;> cases pending <;> simp_all [assemble, Assembly.lexemes]
  | cons token rest ih =>
      obtain ⟨pending, done⟩ := assembly
      cases token with
      | openList start =>
          rw [ih assembled]
          simp [Assembly.lexemes, Pending.lexemes, Token.lexeme, lexemes, Form.trees,
            Tree.allLexemes]
      | closeList start =>
          cases pending with
          | nil => simp [assemble] at assembled
          | cons inner outer =>
              rw [ih assembled, Assembly.lexemes_push]
              simp [Assembly.lexemes, Pending.lexemes, Token.lexeme, lexemes, Form.tree,
                Tree.lexemes]
      | atom value span =>
          rw [assemble] at assembled
          rw [ih assembled, Assembly.lexemes_push]
          simp [Token.lexeme, Form.tree, Tree.lexemes]

/-- A fault of the scanner is a failure of the reader. -/
theorem fault_of_assemble {fault : Option ParseError} {assembly : Assembly} {tokens : List Token}
    {forms : List Form} (assembled : assemble fault assembly tokens = .ok forms) : fault = none := by
  induction tokens generalizing assembly with
  | nil => cases fault <;> simp_all [assemble]
  | cons token rest ih =>
      obtain ⟨pending, done⟩ := assembly
      cases token with
      | openList | atom => exact ih assembled
      | closeList start =>
          cases pending with
          | nil => simp [assemble] at assembled
          | cons inner outer => exact ih assembled

/-- A source that is read spells the tokens of its forms. -/
theorem lexemes?_of_readAll {source : String} {forms : List Form}
    (read : readAll source = .ok forms) :
    Phase.gap.lexemes? source.toList = some (lexemes forms) := by
  rw [← Token.Mode.phase, ← Token.lexemes?_scan .gap 0 source.toList, Tokens.lexemes?_eq_some]
  exact ⟨fault_of_assemble read, (lexemes_of_assemble read).symm⟩

/-- Every atom that the reader finds is readable. -/
theorem readAll_readable {source : String} {forms : List Form} (read : readAll source = .ok forms)
    {value : Atom} (mem : .atom value ∈ lexemes forms) : value.Readable := by
  rw [lexemes_of_assemble read] at mem
  obtain ⟨token, isToken, isAtom⟩ := List.mem_map.mp
    (show .atom value ∈ (Token.scanSource source).list.map Token.lexeme from by
      simpa [Assembly.start, Assembly.lexemes, lexemes, Form.trees, Tree.allLexemes] using mem)
  obtain ⟨span, rfl⟩ := Token.eq_atom isAtom
  exact Token.scan_readable .gap 0 source.toList trivial isToken

/-! ## Compact texts -/

theorem isWord_of_tree {form other : Form} (same : form.tree = other.tree) :
    isWord form = isWord other ∧ isAtom form = isAtom other := by
  match form, other with
  | .atom value _, .atom _ _ =>
      obtain rfl := Tree.atom.inj same
      cases value <;> exact ⟨rfl, rfl⟩
  | .atom _ _, .list _ _ => simp [Form.tree] at same
  | .list _ _, .atom _ _ => simp [Form.tree] at same
  | .list _ _, .list _ _ => exact ⟨rfl, rfl⟩

mutual

/-- The compact text of a form does not depend on its places. -/
theorem compact_of_tree (form other : Form) (same : form.tree = other.tree) :
    compact form = compact other := by
  match form, other with
  | .atom _ _, .atom _ _ => simp_all [Form.tree, compact]
  | .atom _ _, .list _ _ => simp [Form.tree] at same
  | .list _ _, .atom _ _ => simp [Form.tree] at same
  | .list items _, .list others _ =>
      rw [compact, compact, compactItems_of_trees false items others (Tree.list.inj same)]

theorem compactItems_of_trees (afterWord : Bool) (items others : List Form)
    (same : Form.trees items = Form.trees others) :
    compactItems afterWord items = compactItems afterWord others := by
  match items, others with
  | [], [] => rfl
  | [], _ :: _ => simp [Form.trees] at same
  | _ :: _, [] => simp [Form.trees] at same
  | item :: items, other :: others =>
      obtain ⟨here, later⟩ := List.cons.inj same
      rw [compactItems, compactItems, (isWord_of_tree here).1, compact_of_tree item other here,
        compactItems_of_trees _ items others later]

end

theorem compactAll_of_trees {afterAtom : Bool} {forms others : List Form}
    (same : Form.trees forms = Form.trees others) :
    compactAll afterAtom forms = compactAll afterAtom others := by
  induction forms generalizing afterAtom others with
  | nil =>
      cases others with
      | nil => rfl
      | cons => simp [Form.trees] at same
  | cons form forms ih =>
      cases others with
      | nil => simp [Form.trees] at same
      | cons other others =>
          obtain ⟨here, later⟩ := List.cons.inj same
          rw [compactAll, compactAll, (isWord_of_tree here).2, compact_of_tree form other here,
            ih later]

/-! ## Size reduction -/

/-- The numbers that stand in forms. -/
def numbers (forms : List Form) : List Float :=
  (lexemes forms).filterMap fun lexeme =>
    match lexeme with
    | .atom (.number x) => some x
    | _ => none

theorem mem_numbers {forms : List Form} {x : Float} :
    x ∈ numbers forms ↔ .atom (.number x) ∈ lexemes forms := by
  simp only [numbers, List.mem_filterMap]
  constructor
  · rintro ⟨lexeme, mem, isNumber⟩
    split at isNumber
    · exact Option.some.inj isNumber ▸ mem
    · simp at isNumber
  · exact fun mem => ⟨_, mem, rfl⟩

theorem isFinite_of_number {x : Float} (notNaN : x.isNaN = false) (notInf : x.isInf = false) :
    x.isFinite = true := by
  have notNaN : x.toModel.unpack.isNaN = false := notNaN
  have notInf : x.toModel.unpack.isInf = false := notInf
  suffices x.toModel.unpack.isFinite = true from this
  revert notNaN notInf
  cases x.toModel.unpack with
  | notANumber | infinity => exact nofun
  | zero | finite => exact fun _ _ => rfl

/-- What is read is legible once it is written. -/
theorem legible_of_readAll {source : String} {forms : List Form} (read : readAll source = .ok forms)
    {value : Atom} (mem : .atom value ∈ lexemes forms) : value.Legible := by
  have readable := readAll_readable read mem
  cases value with
  | number x =>
      by_cases infinite : x.isInf = true
      · exact .inl infinite
      · have notInf : x.isInf = false := by simpa using infinite
        exact .inr (Number.readsBack_of_isFinite (isFinite_of_number readable notInf))
  | text s => trivial
  | symbol s => exact readable

/-- Size reduction fails exactly where the reader does, and in the same way.  Otherwise its text is
read as the forms of the source, with each infinite number as the conversion it is written as; and
without infinite numbers the text is as small as it gets. -/
theorem minify_keeps_the_forms (source : String) :
    (∀ error, minify source = .error error ↔ readAll source = .error error) ∧
    ∀ forms, readAll source = .ok forms → ∃ text again,
      minify source = .ok text ∧ readAll text = .ok again ∧
      Form.trees again = Tree.spelledOutAll (Form.trees forms) ∧
      ((∀ x ∈ numbers forms, x.isInf = false) →
        Form.trees again = Form.trees forms ∧ minify text = .ok text) := by
  refine ⟨fun error => ?_, fun forms read => ?_⟩
  · cases read : readAll source <;> simp [minify, read, Except.map]
  · obtain ⟨text, minified, spells⟩ :=
      minify_of_readAll read fun value mem => legible_of_readAll read mem
    obtain ⟨again, readAgain, areTrees⟩ := readAll_of_spells spells
    refine ⟨text, again, minified, readAgain, areTrees, fun finite => ?_⟩
    have same : Form.trees again = Form.trees forms := by
      rw [areTrees, Tree.spelledOutAll_of_finite _ fun x mem => finite x (mem_numbers.mpr mem)]
    have isText : compactAll false forms = text := by
      simpa [minify, read, Except.map] using minified
    refine ⟨same, ?_⟩
    simp [minify, readAgain, Except.map, compactAll_of_trees same, isText]

/-- A comment, words that need blanks, texts that need none, and a number that is out of range. -/
def sampleSource : String := "; note\n(say  \"a\" \"b\" x 1.50 (go 1e999))\n+.5 y"

theorem minify_keeps_the_forms_of_sampleSource :
    ∃ forms text again, readAll sampleSource = .ok forms ∧ minify sampleSource = .ok text ∧
      readAll text = .ok again ∧ Form.trees again = Tree.spelledOutAll (Form.trees forms) := by
  have isOk : (readAll sampleSource).toBool = true := by decide +kernel
  cases read : readAll sampleSource with
  | error => simp [read, Except.toBool] at isOk
  | ok forms =>
      obtain ⟨text, again, minified, readAgain, areTrees, -⟩ :=
        (minify_keeps_the_forms sampleSource).2 forms read
      exact ⟨forms, text, again, rfl, minified, readAgain, areTrees⟩

end Form

end StepCode
