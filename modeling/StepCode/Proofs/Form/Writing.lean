import StepCode.Proofs.Form.Spelling

/-!
# Writing forms

The compact text of a form spells the form, provided that its numbers read back from their decimal
text and that its symbols are words.
-/

namespace StepCode

open Token (endsWord ofWord startsNumber)

/-! ## Numbers -/

namespace Decimal

theorem isDigit_of_mem_digitChars {n : Nat} {c : Char} (mem : c ∈ digitChars n) : c.isDigit :=
  Nat.isDigit_of_mem_toDigits (by decide) (by decide) mem

/-- Positional notation starts with a digit and has digits and points only. -/
theorem positional_shape (decimal : Digits) :
    ∃ first rest, positional false decimal = first :: rest ∧ first.isDigit = true ∧
      ∀ c ∈ positional false decimal, c.isDigit = true ∨ c = '.' := by
  obtain ⟨first, rest, digits⟩ := List.exists_cons_of_ne_nil
    (Nat.toDigits_ne_nil : Nat.toDigits 10 decimal.digits ≠ [])
  have isDigit : ∀ c ∈ first :: rest, c.isDigit = true := by
    intro c mem
    exact isDigit_of_mem_digitChars (digits ▸ mem)
  have zero : ∀ count, ∀ c ∈ zeros count, c.isDigit = true := by
    intro count c mem
    obtain rfl := List.eq_of_mem_replicate mem
    rfl
  unfold positional digitChars
  simp only [digits]
  split
  · refine ⟨first, rest ++ zeros decimal.exponent.toNat, by simp, isDigit first (by simp), ?_⟩
    intro c mem
    simp only [List.append_nil, List.mem_append, Bool.false_eq_true, if_false] at mem
    exact .inl (mem.elim (isDigit c) (zero _ c))
  · split
    next places inside =>
      have taken : (first :: rest).length - (-decimal.exponent).toNat ≠ 0 := by omega
      obtain ⟨count, eq⟩ := Nat.exists_eq_succ_of_ne_zero taken
      refine ⟨first, _, by rw [eq, List.take_succ_cons, List.cons_append], isDigit first (by simp),
        ?_⟩
      intro c mem
      rcases List.mem_append.mp mem with before | after
      · exact .inl (isDigit c (List.mem_of_mem_take before))
      · rcases List.mem_cons.mp after with point | after
        · exact .inr point
        · exact .inl (isDigit c (List.mem_of_mem_drop after))
    next =>
      refine ⟨'0', _, rfl, rfl, ?_⟩
      intro c mem
      simp only [List.cons_append, List.mem_cons, List.mem_append] at mem
      rcases mem with rfl | rfl | mem | mem
      · exact .inl rfl
      · exact .inr rfl
      · exact .inl (zero _ c mem)
      · exact .inl (isDigit c (by simpa using mem))

end Decimal

theorem endsWord_eq_false_of_isDigit {c : Char} (digit : c.isDigit = true) :
    endsWord c = false := by
  have range : 48 ≤ c.toNat ∧ c.toNat ≤ 57 := by
    simpa [Char.isDigit, UInt32.le_iff_toNat_le] using digit
  have notBlank : Text.isBlank c = false := by
    simp only [Text.isBlank, Text.inRanges, Text.blankRanges, List.any_cons, List.any_nil,
      Bool.or_eq_false_iff, Bool.and_eq_false_iff, decide_eq_false_iff_not, and_true]
    omega
  have other : ∀ d : Char, d.toNat < 48 ∨ 57 < d.toNat → (c == d) = false := by
    intro d outside
    rw [beq_eq_false_iff_ne]
    rintro rfl
    omega
  simp [endsWord, notBlank, other]

namespace Number

/-- A finite number whose decimal text is read as the number itself. -/
structure ReadsBack (x : Float) : Prop where
  notNaN : x.isNaN = false
  notInf : x.isInf = false
  read : Decimal.read? (text x).toList = some x

instance (x : Float) : Decidable (ReadsBack x) :=
  decidable_of_iff
    (x.isNaN = false ∧ x.isInf = false ∧ Decimal.read? (text x).toList = some x)
    ⟨fun h => ⟨h.1, h.2.1, h.2.2⟩, fun h => ⟨h.notNaN, h.notInf, h.read⟩⟩

theorem toList_text (x : Float) : (text x).toList =
    (if Decimal.isNegative x then ['-'] else []) ++
      Decimal.positional false (Decimal.shortest .upward (Decimal.Binary.ofBits x.toBits)) := by
  simp [text, Decimal.Style.text, plain, Decimal.Style.magnitudeText]

/-- The text of a number is a word that is tried as a number. -/
theorem text_shape (x : Float) :
    startsNumber (text x).toList = true ∧ ∀ c ∈ (text x).toList, endsWord c = false := by
  obtain ⟨first, rest, eq, isDigit, shape⟩ := Decimal.positional_shape
    (Decimal.shortest .upward (Decimal.Binary.ofBits x.toBits))
  have plain : ∀ c, c.isDigit = true ∨ c = '.' → endsWord c = false := by
    rintro c (digit | rfl)
    · exact endsWord_eq_false_of_isDigit digit
    · rfl
  rw [toList_text]
  constructor
  · rw [eq]
    split <;> simp [startsNumber, isDigit]
  · intro c mem
    rcases List.mem_append.mp mem with sign | digit
    · split at sign
      · obtain rfl := List.mem_singleton.mp sign
        rfl
      · simp at sign
    · exact plain c (shape c digit)

theorem spells_text {x : Float} (readsBack : ReadsBack x) :
    Spells true (Form.numberText x).toList [.atom (.number x)] := by
  obtain ⟨starts, plain⟩ := text_shape x
  have nonempty : (text x).toList ≠ [] := by
    intro empty
    simp [empty, startsNumber] at starts
  have spells := Spells.word nonempty plain
  rw [ofWord, if_pos starts, readsBack.read] at spells
  have plainText : Form.numberText x = text x := by
    simp only [Form.numberText, readsBack.notNaN, readsBack.notInf, Bool.false_eq_true, if_false]
  rw [plainText]
  exact spells

end Number

/-! ## Compact forms -/

/-- A text that is read as one symbol. -/
structure IsSymbol (s : String) : Prop where
  nonempty : s.toList ≠ []
  plain : ∀ c ∈ s.toList, endsWord c = false
  read : ofWord s.toList = .symbol s

instance (s : String) : Decidable (IsSymbol s) :=
  decidable_of_iff
    (s.toList ≠ [] ∧ s.toList.all (fun c => !endsWord c) = true ∧ ofWord s.toList = .symbol s)
    ⟨fun h => ⟨h.1, by simpa using h.2.1, h.2.2⟩, fun h => ⟨h.nonempty, by simpa using h.plain, h.read⟩⟩

theorem IsSymbol.spells {s : String} (isSymbol : IsSymbol s) :
    Spells true s.toList [.atom (.symbol s)] :=
  isSymbol.read ▸ Spells.word isSymbol.nonempty isSymbol.plain

def Atom.Writable : Atom → Prop
  | .number x => Number.ReadsBack x
  | .text _ => True
  | .symbol s => IsSymbol s

mutual

/-- Every atom of the form has a text that is read as the atom. -/
def Tree.Writable : Tree → Prop
  | .atom value => value.Writable
  | .list items => Tree.AllWritable items

def Tree.AllWritable : List Tree → Prop
  | [] => True
  | tree :: rest => tree.Writable ∧ Tree.AllWritable rest

end

/-! ## Infinite numbers

An infinite number has no literal: its compact text is a conversion, which is read as a list. -/

/-- An atom as it is read from its compact text. -/
def Atom.spelledOut : Atom → Tree
  | .number x =>
      if x.isInf then
        .list [.atom (.symbol "num"), .atom (.text (if x > 0.0 then "Infinity" else "-Infinity"))]
      else .atom (.number x)
  | .text s => .atom (.text s)
  | .symbol s => .atom (.symbol s)

mutual

/-- A form as it is read from its compact text. -/
def Tree.spelledOut : Tree → Tree
  | .atom value => value.spelledOut
  | .list items => .list (Tree.spelledOutAll items)

def Tree.spelledOutAll : List Tree → List Tree
  | [] => []
  | tree :: rest => tree.spelledOut :: Tree.spelledOutAll rest

end

/-- The compact text of the atom is read as the atom, or as the conversion it is written as. -/
def Atom.Legible : Atom → Prop
  | .number x => x.isInf = true ∨ Number.ReadsBack x
  | .text _ => True
  | .symbol s => IsSymbol s

theorem Atom.spelledOut_of_finite {value : Atom} (finite : ∀ x, value = .number x → x.isInf = false) :
    value.spelledOut = .atom value := by
  cases value with
  | number x => simp [spelledOut, finite x rfl]
  | text s => rfl
  | symbol s => rfl

theorem Atom.legible_of_writable {value : Atom} (writable : value.Writable) : value.Legible := by
  cases value with
  | number x => exact .inr writable
  | text s => trivial
  | symbol s => exact writable

mutual

/-- Without infinite numbers nothing is spelled out. -/
theorem Tree.spelledOut_of_finite (tree : Tree)
    (finite : ∀ x, .atom (.number x) ∈ tree.lexemes → x.isInf = false) : tree.spelledOut = tree := by
  match tree with
  | .atom value =>
      exact Atom.spelledOut_of_finite fun x isNumber => finite x (by simp [lexemes, isNumber])
  | .list items =>
      rw [spelledOut, spelledOutAll_of_finite items fun x mem => finite x (by simp [lexemes, mem])]

theorem Tree.spelledOutAll_of_finite (trees : List Tree)
    (finite : ∀ x, .atom (.number x) ∈ Tree.allLexemes trees → x.isInf = false) :
    Tree.spelledOutAll trees = trees := by
  match trees with
  | [] => rfl
  | tree :: rest =>
      rw [spelledOutAll, spelledOut_of_finite tree fun x mem => finite x (by simp [allLexemes, mem]),
        spelledOutAll_of_finite rest fun x mem => finite x (by simp [allLexemes, mem])]

end

mutual

theorem Tree.Writable.atom (tree : Tree) (writable : tree.Writable) :
    ∀ value, .atom value ∈ tree.lexemes → value.Writable := by
  match tree with
  | .atom value =>
      intro other mem
      obtain rfl : other = value := by simpa [lexemes] using mem
      exact writable
  | .list items =>
      intro value mem
      exact Tree.AllWritable.atom items writable value (by simpa [lexemes] using mem)

theorem Tree.AllWritable.atom (trees : List Tree) (writable : Tree.AllWritable trees) :
    ∀ value, .atom value ∈ Tree.allLexemes trees → value.Writable := by
  match trees with
  | [] => simp [allLexemes]
  | tree :: rest =>
      intro value mem
      rcases List.mem_append.mp mem with here | later
      · exact Tree.Writable.atom tree writable.1 value here
      · exact Tree.AllWritable.atom rest writable.2 value later

end

/-- Writable forms have no infinite numbers. -/
theorem Tree.AllWritable.finite {trees : List Tree} (writable : Tree.AllWritable trees) (x : Float)
    (mem : .atom (.number x) ∈ Tree.allLexemes trees) : x.isInf = false :=
  (Tree.AllWritable.atom trees writable _ mem).notInf

namespace Number

theorem notNaN_of_isInf {x : Float} (infinite : x.isInf = true) : x.isNaN = false := by
  have infinite : x.toModel.unpack.isInf = true := infinite
  suffices x.toModel.unpack.isNaN = false from this
  revert infinite
  cases x.toModel.unpack with
  | notANumber => exact nofun
  | infinity | zero | finite => exact fun _ => rfl

/-- The text of an infinite number is read as a conversion, whatever follows. -/
theorem spells_infinite {x : Float} (infinite : x.isInf = true) :
    Spells false (Form.numberText x).toList (Atom.number x).spelledOut.lexemes := by
  have notNaN := notNaN_of_isInf infinite
  simp only [Form.numberText, notNaN, infinite, Bool.false_eq_true, if_false, if_true,
    Atom.spelledOut]
  split
  · exact .of_run (by decide)
  · exact .of_run (by decide)

end Number

theorem Atom.spells (value : Atom) (legible : value.Legible) (span : Span) :
    Spells (Form.isWord (.atom value span)) (Form.atomText value).toList
      value.spelledOut.lexemes := by
  cases value with
  | number x =>
      rcases legible with infinite | readsBack
      · exact (Number.spells_infinite infinite).weaken
      · rw [Atom.spelledOut_of_finite (by rintro _ ⟨⟩; exact readsBack.notInf)]
        exact Number.spells_text readsBack
  | text s => exact .quote s
  | symbol s => exact IsSymbol.spells legible

namespace Form

theorem isAtom_of_isWord {form : Form} (word : isWord form = true) : isAtom form = true := by
  cases form with
  | atom _ _ => rfl
  | list _ _ => simp [isWord] at word

theorem not_isWord_of_not_isAtom {form : Form} (notAtom : isAtom form = false) :
    isWord form = false := by
  cases form with
  | atom _ _ => simp [isAtom] at notAtom
  | list _ _ => rfl

/-- What is not a bare word starts with a character that ends words. -/
theorem compact_head_of_not_isWord {form : Form} (notWord : isWord form = false) :
    ∃ c rest, (compact form).toList = c :: rest ∧ endsWord c = true := by
  match form with
  | .atom (.text s) _ =>
      exact ⟨'"', s.toList.flatMap quoteChar ++ ['"'], by simp [compact, atomText, quote], rfl⟩
  | .list items _ =>
      exact ⟨'(', (compactItems false items).toList ++ [')'], by simp [compact], rfl⟩

mutual

theorem spells_compact (form : Form)
    (legible : ∀ value, .atom value ∈ form.tree.lexemes → value.Legible) :
    Spells (isWord form) (compact form).toList form.tree.spelledOut.lexemes := by
  match form with
  | .atom value span => exact value.spells (legible value (by simp [Form.tree, Tree.lexemes])) span
  | .list items _ =>
      have inner := (spells_compactItems false items fun value mem =>
        legible value (by simp [Form.tree, Tree.lexemes, mem])).1
      simpa [compact, Form.tree, Tree.spelledOut, Tree.lexemes, isWord] using
        Spells.openList.append_closed inner

/-- The items of a list up to its end.  Behind a bare word they start with a blank or with a
character that ends words. -/
theorem spells_compactItems (afterWord : Bool) (items : List Form)
    (legible : ∀ value, .atom value ∈ Tree.allLexemes (Form.trees items) → value.Legible) :
    Spells false ((compactItems afterWord items).toList ++ [')'])
        (Tree.allLexemes (Tree.spelledOutAll (Form.trees items)) ++ [.closeList]) ∧
      (afterWord = true → ∀ rest, EndsWord ((compactItems afterWord items).toList ++ [')'] ++ rest)) := by
  match items with
  | [] => exact ⟨Spells.closeList, fun _ _ => rfl⟩
  | item :: rest =>
      have first := spells_compact item fun value mem =>
        legible value (by simp [Form.trees, Tree.allLexemes, mem])
      obtain ⟨later, ends⟩ := spells_compactItems (isWord item) rest fun value mem =>
        legible value (by simp [Form.trees, Tree.allLexemes, mem])
      have together := first.append later fun tail isBare _ => ends isBare tail
      simp only [Form.trees, Tree.spelledOutAll, Tree.allLexemes, compactItems]
      by_cases apart : (afterWord && isWord item) = true
      · have spaced := (Spells.blank (rfl : Text.isBlank ' ' = true)).append_closed together
        rw [if_pos apart]
        exact ⟨by simpa using spaced, fun _ tail => by simp [endsWord_space]⟩
      · rw [if_neg apart]
        refine ⟨by simpa using together, fun behindWord tail => ?_⟩
        have notWord : isWord item = false := by simpa [behindWord] using apart
        obtain ⟨c, others, head, ends⟩ := compact_head_of_not_isWord notWord
        simpa [head] using ends

end

/-- Top-level forms; behind an atom they start with a blank or with a character that ends words. -/
theorem spells_compactAll (afterAtom : Bool) (forms : List Form)
    (legible : ∀ value, .atom value ∈ Tree.allLexemes (Form.trees forms) → value.Legible) :
    Spells true (compactAll afterAtom forms).toList
        (Tree.allLexemes (Tree.spelledOutAll (Form.trees forms))) ∧
      (afterAtom = true → ∀ rest, EndsWord rest →
        EndsWord ((compactAll afterAtom forms).toList ++ rest)) := by
  induction forms generalizing afterAtom with
  | nil => exact ⟨Spells.nil.weaken, fun _ rest ends => ends⟩
  | cons form rest ih =>
      have first := spells_compact form fun value mem =>
        legible value (by simp [Form.trees, Tree.allLexemes, mem])
      obtain ⟨later, ends⟩ := ih (isAtom form) fun value mem =>
        legible value (by simp [Form.trees, Tree.allLexemes, mem])
      have together := first.append later fun tail isBare tailEnds =>
        ends (isAtom_of_isWord isBare) tail (tailEnds rfl)
      simp only [Form.trees, Tree.spelledOutAll, Tree.allLexemes, compactAll]
      by_cases apart : (afterAtom && isAtom form) = true
      · have spaced := (Spells.blank (rfl : Text.isBlank ' ' = true)).append_closed together
        rw [if_pos apart]
        exact ⟨by simpa using spaced, fun _ tail _ => by simp [endsWord_space]⟩
      · rw [if_neg apart]
        refine ⟨by simpa using together, fun behindAtom tail _ => ?_⟩
        have notAtom : isAtom form = false := by simpa [behindAtom] using apart
        obtain ⟨c, others, head, ends⟩ := compact_head_of_not_isWord (not_isWord_of_not_isAtom notAtom)
        simpa [head] using ends

/-- Size reduction of a source with legible atoms: the text spells the forms with their infinite
numbers spelled out. -/
theorem minify_of_readAll {source : String} {forms : List Form} (read : readAll source = .ok forms)
    (legible : ∀ value, .atom value ∈ Tree.allLexemes (Form.trees forms) → value.Legible) :
    ∃ text, minify source = .ok text ∧
      Spells true text.toList (Tree.allLexemes (Tree.spelledOutAll (Form.trees forms))) :=
  ⟨compactAll false forms, by simp [minify, read, Except.map], (spells_compactAll false forms legible).1⟩

/-- Size reduction of a text that spells one writable form. -/
theorem minify_of_spells {bare : Bool} {source : String} {tree : Tree}
    (spells : Spells bare source.toList tree.lexemes) (writable : tree.Writable) :
    ∃ text, minify source = .ok text ∧ Spells true text.toList tree.lexemes := by
  have single : Tree.allLexemes [tree] = tree.lexemes := by simp [Tree.allLexemes]
  obtain ⟨forms, read, areTrees⟩ := readAll_of_spells (single ▸ spells)
  have allWritable : Tree.AllWritable (Form.trees forms) := areTrees ▸ ⟨writable, trivial⟩
  obtain ⟨text, minified, spelt⟩ := minify_of_readAll read fun value mem =>
    Atom.legible_of_writable (Tree.AllWritable.atom _ allWritable value mem)
  rw [Tree.spelledOutAll_of_finite _ allWritable.finite, areTrees, single] at spelt
  exact ⟨text, minified, spelt⟩

end Form

end StepCode
