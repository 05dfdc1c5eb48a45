import Mathlib.Tactic.SplitIfs
import StepCode.Form.Compact
import StepCode.Proofs.Form.Lexeme

/-!
# Spelling forms

Pieces of text are put together to the text of a form, and the reader gives that form back.
-/

namespace StepCode

open Token (endsWord ofWord escape?)

/-- The end of the source, or a character that ends words. -/
def EndsWord : List Char → Prop
  | [] => True
  | c :: _ => endsWord c = true

@[simp] theorem endsWord_cons (c : Char) (rest : List Char) :
    EndsWord (c :: rest) ↔ endsWord c = true := Iff.rfl

theorem endsWord_space : endsWord ' ' = true := rfl

/-- The characters spell the tokens, whatever follows.  A text that is `bare` ends in a word, and the
end of a word has to follow. -/
def Spells (bare : Bool) (chars : List Char) (lexemes : List Lexeme) : Prop :=
  ∀ rest, (bare = true → EndsWord rest) →
    Phase.gap.lexemes? (chars ++ rest) = (Phase.gap.lexemes? rest).map (lexemes ++ ·)

namespace Spells

variable {bare more : Bool} {chars others : List Char} {lexemes later : List Lexeme}

theorem nil : Spells false [] [] := by
  intro rest _
  simp

/-- A text on its own. -/
theorem lexemes? (spells : Spells bare chars lexemes) : Phase.gap.lexemes? chars = some lexemes := by
  simpa [Phase.lexemes?_nil, Phase.finish] using spells [] (fun _ => trivial)

theorem weaken (spells : Spells false chars lexemes) : Spells bare chars lexemes :=
  fun rest _ => spells rest (by simp)

/-- Two pieces in a row; behind a bare word the second one has to end it. -/
theorem append (first : Spells bare chars lexemes) (second : Spells more others later)
    (ends : ∀ rest, bare = true → (more = true → EndsWord rest) → EndsWord (others ++ rest)) :
    Spells more (chars ++ others) (lexemes ++ later) := by
  intro rest hRest
  rw [List.append_assoc, first _ (fun isBare => ends rest isBare hRest), second _ hRest,
    Option.map_map]
  congr 1
  funext tail
  simp

/-- A piece that does not end in a bare word may be followed by any other. -/
theorem append_closed (first : Spells false chars lexemes) (second : Spells more others later) :
    Spells more (chars ++ others) (lexemes ++ later) :=
  first.append second (by simp)

/-- A piece that starts with a character that ends words may follow any other. -/
theorem append_cons {c : Char} (first : Spells bare chars lexemes)
    (second : Spells more (c :: others) later) (ends : endsWord c = true) :
    Spells more (chars ++ c :: others) (lexemes ++ later) :=
  first.append second fun _ _ _ => ends

theorem of_run (ran : Phase.gap.run chars = some (lexemes, .gap)) : Spells false chars lexemes :=
  fun rest _ => Phase.lexemes?_append_of_run ran rest

theorem blank {c : Char} (isBlank : Text.isBlank c = true) : Spells false [c] [] :=
  of_run (by simp [Phase.run, Phase.next, Phase.begin, isBlank])

theorem openList : Spells false ['('] [.openList] := of_run rfl

theorem closeList : Spells false [')'] [.closeList] := of_run rfl

/-! ### Words -/

/-- Behind the end of a word the scanner goes on as it does outside any token. -/
theorem lexemes?_word_of_ends {read rest : List Char} (ends : EndsWord rest) :
    (Phase.word read).lexemes? rest =
      (Phase.gap.lexemes? rest).map (Phase.wordAtom read :: ·) := by
  cases rest with
  | nil => simp [Phase.lexemes?_nil, Phase.finish]
  | cons c rest =>
      have hEnds : endsWord c = true := ends
      simp [Phase.lexemes?_cons, Phase.next, hEnds, Function.comp_def]

theorem lexemes?_word {read word rest : List Char} (plain : ∀ c ∈ word, endsWord c = false)
    (ends : EndsWord rest) :
    (Phase.word read).lexemes? (word ++ rest) =
      (Phase.gap.lexemes? rest).map (Phase.wordAtom (word.reverse ++ read) :: ·) := by
  induction word generalizing read with
  | nil => simpa using lexemes?_word_of_ends ends
  | cons c word ih =>
      have hPlain : endsWord c = false := plain c (by simp)
      have hRest : ∀ d ∈ word, endsWord d = false := fun d mem => plain d (by simp [mem])
      simp [Phase.lexemes?_cons, Phase.next, hPlain, ih hRest, Function.comp_def]

theorem begin_of_not_endsWord {c : Char} (plain : endsWord c = false) :
    Phase.begin c = ([], .word [c]) := by
  simp only [endsWord, Bool.or_eq_false_iff, beq_eq_false_iff_ne] at plain
  simp [Phase.begin, plain]

/-- A word is spelt as it is. -/
theorem word (nonempty : chars ≠ []) (plain : ∀ c ∈ chars, endsWord c = false) :
    Spells true chars [.atom (ofWord chars)] := by
  intro rest ends
  obtain ⟨c, others, rfl⟩ := List.exists_cons_of_ne_nil nonempty
  have hRest : ∀ d ∈ others, endsWord d = false := fun d mem => plain d (by simp [mem])
  rw [List.cons_append, Phase.lexemes?_cons, Phase.next, Option.bind_some,
    begin_of_not_endsWord (plain c (by simp)), lexemes?_word hRest (ends rfl)]
  simp [Phase.wordAtom, Function.comp_def]

/-! ### Texts -/

/-- Inside a text, what a character is written as stands for the character. -/
theorem run_quoteChar (read : List Char) (c : Char) :
    (Phase.text read).run (Form.quoteChar c) = some ([], .text (c :: read)) := by
  unfold Form.quoteChar
  split_ifs with quote slash newline tab feed
  · subst quote; rfl
  · subst slash; rfl
  · subst newline; rfl
  · subst tab; rfl
  · subst feed; rfl
  · simp [Phase.run, Phase.next, quote, slash]

theorem lexemes?_quoted (read content rest : List Char) :
    (Phase.text read).lexemes? (content.flatMap Form.quoteChar ++ '"' :: rest) =
      (Phase.gap.lexemes? rest).map
        (.atom (.text (String.ofList (read.reverse ++ content))) :: ·) := by
  induction content generalizing read with
  | nil => simp [Phase.lexemes?_cons, Phase.next]
  | cons c content ih =>
      rw [List.flatMap_cons, List.append_assoc, Phase.lexemes?_append_of_run (run_quoteChar read c),
        ih]
      simp [Function.comp_def]

/-- A text in quotes spells itself, whatever characters it holds. -/
theorem quote (s : String) : Spells false (Form.quote s).toList [.atom (.text s)] := by
  intro rest _
  have start : Phase.gap.lexemes? ('"' :: (s.toList.flatMap Form.quoteChar ++ '"' :: rest)) =
      (Phase.text []).lexemes? (s.toList.flatMap Form.quoteChar ++ '"' :: rest) := by
    rw [Phase.lexemes?_cons]
    have begun : Phase.begin '"' = ([], .text []) := rfl
    simp [Phase.next, begun]
  have split : (Form.quote s).toList ++ rest =
      '"' :: (s.toList.flatMap Form.quoteChar ++ '"' :: rest) := by
    simp [Form.quote]
  rw [split, start, lexemes?_quoted]
  simp

end Spells

/-! ## Forms without places -/

/-- A form without its places. -/
inductive Tree where
  | atom (value : Atom)
  | list (items : List Tree)
deriving Repr, Inhabited

mutual

def Form.tree : Form → Tree
  | .atom value _ => .atom value
  | .list items _ => .list (Form.trees items)

def Form.trees : List Form → List Tree
  | [] => []
  | form :: rest => form.tree :: Form.trees rest

end

mutual

/-- The tokens of a form. -/
def Tree.lexemes : Tree → List Lexeme
  | .atom value => [.atom value]
  | .list items => .openList :: (Tree.allLexemes items ++ [.closeList])

def Tree.allLexemes : List Tree → List Lexeme
  | [] => []
  | tree :: rest => tree.lexemes ++ Tree.allLexemes rest

end

theorem Token.eq_openList {token : Token} (opens : token.lexeme = .openList) :
    ∃ start, token = .openList start := by
  cases token <;> simp_all [Token.lexeme]

theorem Token.eq_closeList {token : Token} (closes : token.lexeme = .closeList) :
    ∃ start, token = .closeList start := by
  cases token <;> simp_all [Token.lexeme]

theorem Token.eq_atom {token : Token} {value : Atom} (isAtom : token.lexeme = .atom value) :
    ∃ span, token = .atom value span := by
  cases token <;> simp_all [Token.lexeme]

namespace Form

/-- Add finished forms one after the other. -/
def Assembly.pushAll (forms : List Form) (assembly : Assembly) : Assembly :=
  forms.foldl (fun assembly form => assembly.push form) assembly

theorem Assembly.pushAll_pending (forms read : List Form) (start : Nat) (outer : List Pending)
    (done : List Form) :
    Assembly.pushAll forms ⟨⟨start, read⟩ :: outer, done⟩ =
      ⟨⟨start, forms.reverse ++ read⟩ :: outer, done⟩ := by
  induction forms generalizing read with
  | nil => rfl
  | cons form rest ih => simpa [pushAll, push] using ih (form :: read)

theorem Assembly.pushAll_done (forms done : List Form) :
    Assembly.pushAll forms ⟨[], done⟩ = ⟨[], forms.reverse ++ done⟩ := by
  induction forms generalizing done with
  | nil => rfl
  | cons form rest ih => simpa [pushAll, push] using ih (form :: done)

mutual

/-- The tokens of a form are put together to that form. -/
theorem assemble_tree (tree : Tree) {tokens : List Token}
    (spelt : tokens.map Token.lexeme = tree.lexemes) :
    ∃ form : Form, form.tree = tree ∧ ∀ fault assembly rest,
      assemble fault assembly (tokens ++ rest) = assemble fault (assembly.push form) rest := by
  match tree with
  | .atom value =>
      simp only [Tree.lexemes, List.map_eq_singleton_iff] at spelt
      obtain ⟨token, rfl, spelt⟩ := spelt
      obtain ⟨span, rfl⟩ := Token.eq_atom spelt
      exact ⟨.atom value span, rfl, fun fault assembly rest => by simp [assemble]⟩
  | .list items =>
      simp only [Tree.lexemes, List.map_eq_cons_iff, List.map_eq_append_iff] at spelt
      obtain ⟨first, _, rfl, opens, inner, last, rfl, spelt, closes⟩ := spelt
      obtain ⟨forms, areForms, assembled⟩ := assemble_trees items spelt
      obtain ⟨start, rfl⟩ := Token.eq_openList opens
      obtain ⟨closing, others, rfl, closes, empty⟩ := closes
      obtain rfl := List.map_eq_nil_iff.mp empty
      obtain ⟨stop, rfl⟩ := Token.eq_closeList closes
      refine ⟨.list forms ⟨start, stop + 1⟩, by simp [Form.tree, areForms], ?_⟩
      intro fault assembly rest
      obtain ⟨pending, done⟩ := assembly
      simp only [List.cons_append, List.append_assoc, assemble, List.nil_append]
      rw [assembled, Assembly.pushAll_pending, List.append_nil]
      simp [assemble]

theorem assemble_trees (trees : List Tree) {tokens : List Token}
    (spelt : tokens.map Token.lexeme = Tree.allLexemes trees) :
    ∃ forms : List Form, Form.trees forms = trees ∧ ∀ fault assembly rest,
      assemble fault assembly (tokens ++ rest) = assemble fault (assembly.pushAll forms) rest := by
  match trees with
  | [] =>
      obtain rfl : tokens = [] := by simpa [Tree.allLexemes] using spelt
      exact ⟨[], rfl, fun fault assembly rest => rfl⟩
  | tree :: trees =>
      simp only [Tree.allLexemes, List.map_eq_append_iff] at spelt
      obtain ⟨first, others, rfl, here, later⟩ := spelt
      obtain ⟨form, isForm, assembled⟩ := assemble_tree tree here
      obtain ⟨forms, areForms, allAssembled⟩ := assemble_trees trees later
      refine ⟨form :: forms, by simp [Form.trees, isForm, areForms], fun fault assembly rest => ?_⟩
      rw [List.append_assoc, assembled, allAssembled]
      rfl

end

/-- The reader puts the tokens of forms together to these forms. -/
theorem readAll_of_lexemes? {source : String} {trees : List Tree}
    (spelt : Phase.gap.lexemes? source.toList = some (Tree.allLexemes trees)) :
    ∃ forms, readAll source = .ok forms ∧ Form.trees forms = trees := by
  have scanned : (Token.scanSource source).lexemes? = some (Tree.allLexemes trees) :=
    (Token.lexemes?_scan .gap 0 source.toList).trans spelt
  obtain ⟨fault, tokens⟩ := Tokens.lexemes?_eq_some.mp scanned
  obtain ⟨forms, areForms, assembled⟩ := assemble_trees trees tokens
  refine ⟨forms, ?_, areForms⟩
  have atEnd := assembled none .start []
  rw [List.append_nil, Assembly.start, Assembly.pushAll_done] at atEnd
  simp [readAll, fault, Assembly.start, atEnd, assemble]

/-- The reader gives the forms that a source spells. -/
theorem readAll_of_spells {bare : Bool} {source : String} {trees : List Tree}
    (spells : Spells bare source.toList (Tree.allLexemes trees)) :
    ∃ forms, readAll source = .ok forms ∧ Form.trees forms = trees :=
  readAll_of_lexemes? spells.lexemes?

end Form

end StepCode
