import StepCode.Proofs.Script.Tree

/-!
# Printed scripts

The text of a script spells the form of the script.  Every printed list is its first word followed by
items with a blank in front of each.
-/

namespace StepCode

open Token (endsWord)

theorem Builtin.isSymbol_symbol (op : Builtin) : IsSymbol op.symbol := by
  cases op <;> decide

theorem isBlank_space : Text.isBlank ' ' = true := rfl

theorem isBlank_newline : Text.isBlank '\n' = true := rfl

theorem Tree.spells_symbol {s : String} (isSymbol : IsSymbol s) :
    Spells true s.toList (Tree.symbol s).lexemes :=
  isSymbol.spells

theorem Tree.spells_text (s : String) : Spells false (Form.quote s).toList (Tree.text s).lexemes :=
  .quote s

/-! ## Lists -/

/-- The items of a list with a blank in front of each, up to the end of the list. -/
structure SpellsItems (chars : List Char) (trees : List Tree) : Prop where
  spells : Spells false (chars ++ [')']) (Tree.allLexemes trees ++ [.closeList])
  ends : ∀ rest, EndsWord (chars ++ [')'] ++ rest)

namespace SpellsItems

variable {bare : Bool} {chars others : List Char} {tree : Tree} {trees : List Tree}

theorem nil : SpellsItems [] [] := ⟨Spells.closeList, fun _ => rfl⟩

theorem cons {c : Char} (blank : Text.isBlank c = true) (first : Spells bare chars tree.lexemes)
    (items : SpellsItems others trees) : SpellsItems (c :: (chars ++ others)) (tree :: trees) where
  spells := by
    have together := (Spells.blank blank).append_closed
      (first.append items.spells fun rest _ _ => items.ends rest)
    simpa [Tree.allLexemes] using together
  ends := fun rest => by simp [endsWord, blank]

/-- A list: its first form and the items behind it. -/
theorem list (first : Spells bare chars tree.lexemes) (items : SpellsItems others trees) :
    Spells false ('(' :: (chars ++ (others ++ [')']))) (Tree.list (tree :: trees)).lexemes := by
  have together := Spells.openList.append_closed
    (first.append items.spells fun rest _ _ => items.ends rest)
  simpa [Tree.lexemes, Tree.allLexemes] using together

/-- A list that starts with a word. -/
theorem words {head : String} (isSymbol : IsSymbol head) (items : SpellsItems others trees) :
    Spells false ('(' :: (head.toList ++ (others ++ [')'])))
      (Tree.list (.symbol head :: trees)).lexemes :=
  list (Tree.spells_symbol isSymbol) items

/-- A text in front of other items. -/
theorem text (items : SpellsItems others trees) (s : String) :
    SpellsItems (' ' :: ((Form.quote s).toList ++ others)) (.text s :: trees) :=
  cons isBlank_space (Tree.spells_text s) items

end SpellsItems

/-! ## Expressions -/

mutual

theorem Expr.spells_print (expr : Expr) (wellFormed : expr.WellFormed) :
    Spells true expr.print.toList expr.tree.lexemes := by
  match expr with
  | .number x => exact Number.spells_text wellFormed
  | .text s => exact (Tree.spells_text s).weaken
  | .bool true => exact Tree.spells_symbol (by decide : IsSymbol "true")
  | .bool false => exact Tree.spells_symbol (by decide : IsSymbol "false")
  | .var name =>
      have list := SpellsItems.words (by decide : IsSymbol "get") (SpellsItems.nil.text name)
      simpa [Expr.print, Expr.tree] using list.weaken
  | .param name =>
      have list := SpellsItems.words (by decide : IsSymbol "param") (SpellsItems.nil.text name)
      simpa [Expr.print, Expr.tree] using list.weaken
  | .helper name args =>
      have list := SpellsItems.words (by decide : IsSymbol "helper")
        (.cons isBlank_space (Tree.spells_symbol wellFormed.1) (spells_printExprs args wellFormed.2))
      simpa [Expr.print, Expr.tree] using list.weaken
  | .report opcode args =>
      have list := SpellsItems.words (by decide : IsSymbol "report")
        ((spells_printArgs args wellFormed).text opcode)
      simpa [Expr.print, Expr.tree] using list.weaken
  | .choose cond yes no =>
      have list := SpellsItems.words (by decide : IsSymbol "?")
        (.cons isBlank_space (cond.spells_print wellFormed.1)
          (.cons isBlank_space (yes.spells_print wellFormed.2.1)
            (.cons isBlank_space (no.spells_print wellFormed.2.2) .nil)))
      simpa [Expr.print, Expr.tree] using list.weaken
  | .builtin op args =>
      have list := SpellsItems.words op.isSymbol_symbol
        (spells_printExprs args wellFormed.2)
      simpa [Expr.print, Expr.tree] using list.weaken

theorem spells_printExprs (args : List Expr) (wellFormed : ExprsWellFormed args) :
    SpellsItems (printExprs args).toList (exprTrees args) := by
  match args with
  | [] => exact .nil
  | arg :: args =>
      have items := SpellsItems.cons isBlank_space (arg.spells_print wellFormed.1)
        (spells_printExprs args wellFormed.2)
      simpa [printExprs, exprTrees] using items

theorem spells_printArgs (args : List (String × Expr)) (wellFormed : ArgsWellFormed args) :
    SpellsItems (printArgs args).toList (argTrees args) := by
  match args with
  | [] => exact .nil
  | (name, value) :: args =>
      have pair := SpellsItems.list (Tree.spells_text name)
        (.cons isBlank_space (value.spells_print wellFormed.1) .nil)
      have items := SpellsItems.cons isBlank_space pair (spells_printArgs args wellFormed.2)
      simpa [printArgs, argTrees] using items

end

/-! ## Statements -/

theorem spells_indent (depth : Nat) : Spells false (indent depth).toList [] := by
  have blanks : ∀ count, Spells false (List.replicate count ' ') [] := by
    intro count
    induction count with
    | zero => exact .nil
    | succ count ih => exact (Spells.blank isBlank_space).append_closed ih
  simpa [indent] using blanks (2 * depth)

section

variable {chars : List Char} {trees : List Tree} (items : SpellsItems chars trees)

include items

theorem SpellsItems.value {expr : Expr} (wellFormed : expr.WellFormed) :
    SpellsItems (' ' :: (expr.print.toList ++ chars)) (expr.tree :: trees) :=
  .cons isBlank_space (expr.spells_print wellFormed) items

/-- A list on a line of its own: its keyword and the items behind it. -/
theorem spells_line (depth : Nat) {head : String} (isSymbol : IsSymbol head) :
    Spells false ((indent depth).toList ++ '(' :: (head.toList ++ (chars ++ [')'])))
      (Tree.list (.symbol head :: trees)).lexemes :=
  (spells_indent depth).append_closed (SpellsItems.words isSymbol items)

/-- A clause is a line among the items. -/
theorem SpellsItems.line {others : List Char} {further : List Tree} (behind : SpellsItems others further)
    (depth : Nat) {head : String} (isSymbol : IsSymbol head) :
    SpellsItems
      ('\n' :: ((indent depth).toList ++ '(' :: (head.toList ++ (chars ++ [')'])) ++ others))
      (Tree.list (.symbol head :: trees) :: further) :=
  .cons isBlank_newline (spells_line items depth isSymbol) behind

end

/-- A branch without statements has no clause. -/
theorem Stmt.spells_ifElse (depth : Nat) {cond : Expr} {yes no : List Stmt}
    (wellFormed : cond.WellFormed)
    (spellsYes : SpellsItems (printBody (depth + 2) yes).toList (stmtTrees yes))
    (spellsNo : SpellsItems (printBody (depth + 2) no).toList (stmtTrees no)) :
    Spells false ((Stmt.ifElse cond yes no).printAt depth).toList
      (Stmt.ifElse cond yes no).tree.lexemes := by
  cases no with
  | nil =>
      have clauses := spellsYes.line .nil (depth + 1) (by decide : IsSymbol "then")
      have list := spells_line (clauses.value wellFormed) depth (by decide : IsSymbol "if")
      simpa [Stmt.printAt, Stmt.tree] using list
  | cons first rest =>
      have otherwise := spellsNo.line .nil (depth + 1) (by decide : IsSymbol "else")
      have clauses := spellsYes.line otherwise (depth + 1) (by decide : IsSymbol "then")
      have list := spells_line (clauses.value wellFormed) depth (by decide : IsSymbol "if")
      simpa [Stmt.printAt, Stmt.tree, stmtTrees] using list

mutual

theorem Stmt.spells_printAt (depth : Nat) (stmt : Stmt) (wellFormed : stmt.WellFormed) :
    Spells false (stmt.printAt depth).toList stmt.tree.lexemes := by
  match stmt with
  | .set var value =>
      have items := (SpellsItems.nil.value wellFormed).text var
      simpa [Stmt.printAt, Stmt.tree] using spells_line items depth (by decide : IsSymbol "set")
  | .change var amount =>
      have items := (SpellsItems.nil.value wellFormed).text var
      simpa [Stmt.printAt, Stmt.tree] using spells_line items depth (by decide : IsSymbol "change")
  | .op opcode args =>
      have items := (spells_printArgs args wellFormed).text opcode
      simpa [Stmt.printAt, Stmt.tree] using spells_line items depth (by decide : IsSymbol "op")
  | .call signature args =>
      have items := (spells_printExprs args wellFormed.2).text signature
      simpa [Stmt.printAt, Stmt.tree] using spells_line items depth (by decide : IsSymbol "call")
  | .yield =>
      simpa [Stmt.printAt, Stmt.tree] using spells_line .nil depth (by decide : IsSymbol "yield")
  | .times count body =>
      have items := (spells_printBody (depth + 1) body wellFormed.2).value wellFormed.1
      simpa [Stmt.printAt, Stmt.tree] using spells_line items depth (by decide : IsSymbol "repeat")
  | .forever body =>
      have items := spells_printBody (depth + 1) body wellFormed
      simpa [Stmt.printAt, Stmt.tree] using spells_line items depth (by decide : IsSymbol "forever")
  | .whileTrue cond body =>
      have items := (spells_printBody (depth + 1) body wellFormed.2).value wellFormed.1
      simpa [Stmt.printAt, Stmt.tree] using spells_line items depth (by decide : IsSymbol "while")
  | .untilTrue cond body =>
      have items := (spells_printBody (depth + 1) body wellFormed.2).value wellFormed.1
      simpa [Stmt.printAt, Stmt.tree] using spells_line items depth (by decide : IsSymbol "until")
  | .ifElse cond yes no =>
      exact Stmt.spells_ifElse depth wellFormed.1 (spells_printBody (depth + 2) yes wellFormed.2.1)
        (spells_printBody (depth + 2) no wellFormed.2.2)
  | .ret none =>
      simpa [Stmt.printAt, Stmt.tree] using spells_line .nil depth (by decide : IsSymbol "return")
  | .ret (some value) =>
      have items := SpellsItems.nil.value wellFormed
      simpa [Stmt.printAt, Stmt.tree] using spells_line items depth (by decide : IsSymbol "return")

theorem spells_printBody (depth : Nat) (body : List Stmt) (wellFormed : StmtsWellFormed body) :
    SpellsItems (printBody depth body).toList (stmtTrees body) := by
  match body with
  | [] => exact .nil
  | stmt :: body =>
      have items := SpellsItems.cons isBlank_newline (stmt.spells_printAt depth wellFormed.1)
        (spells_printBody depth body wellFormed.2)
      simpa [printBody, stmtTrees] using items

end

/-! ## Scripts -/

/-- The names of the parameters, up to the end of their list. -/
theorem spells_quotedNames (names : List String) :
    Spells false ((quotedNames names).toList ++ [')'])
      (Tree.allLexemes (names.map .text) ++ [.closeList]) := by
  match names with
  | [] => exact Spells.closeList
  | [name] =>
      have last := (Tree.spells_text name).append_closed Spells.closeList
      simpa [quotedNames, Tree.allLexemes] using last
  | name :: other :: names =>
      have rest := (Spells.blank isBlank_space).append_closed (spells_quotedNames (other :: names))
      have first := (Tree.spells_text name).append_closed rest
      simpa [quotedNames, Tree.allLexemes] using first

/-- The names of the parameters as a list. -/
theorem spells_params (names : List String) :
    Spells false ('(' :: ((quotedNames names).toList ++ [')']))
      (Tree.list (names.map .text)).lexemes :=
  Spells.openList.append_closed (spells_quotedNames names)

theorem Script.spells_print {script : Script} (wellFormed : StmtsWellFormed script.body) :
    Spells false script.print.toList script.tree.lexemes := by
  have list := SpellsItems.words (by decide : IsSymbol "script")
    (.cons isBlank_space (spells_params script.params) (spells_printBody 1 script.body wellFormed))
  simpa [Script.print, Script.tree] using list

/-- A printed script is parsed as the script. -/
theorem Script.parse_print {script : Script} (wellFormed : StmtsWellFormed script.body) :
    Script.parse script.print = .ok script :=
  Script.parse_of_spells wellFormed (Script.spells_print wellFormed)

/-! ## Size-reduced scripts -/

mutual

theorem Expr.writable_tree (expr : Expr) (wellFormed : expr.WellFormed) : expr.tree.Writable := by
  match expr with
  | .number x => exact wellFormed
  | .text s => trivial
  | .bool true => exact (by decide : IsSymbol "true")
  | .bool false => exact (by decide : IsSymbol "false")
  | .var name => exact ⟨(by decide : IsSymbol "get"), trivial, trivial⟩
  | .param name => exact ⟨(by decide : IsSymbol "param"), trivial, trivial⟩
  | .helper name args =>
      exact ⟨(by decide : IsSymbol "helper"), wellFormed.1,
        writable_exprTrees args wellFormed.2⟩
  | .report opcode args =>
      exact ⟨(by decide : IsSymbol "report"), trivial, writable_argTrees args wellFormed⟩
  | .choose cond yes no =>
      exact ⟨(by decide : IsSymbol "?"), cond.writable_tree wellFormed.1,
        yes.writable_tree wellFormed.2.1, no.writable_tree wellFormed.2.2, trivial⟩
  | .builtin op args => exact ⟨op.isSymbol_symbol, writable_exprTrees args wellFormed.2⟩

theorem writable_exprTrees (args : List Expr) (wellFormed : ExprsWellFormed args) :
    Tree.AllWritable (exprTrees args) := by
  match args with
  | [] => trivial
  | arg :: args => exact ⟨arg.writable_tree wellFormed.1, writable_exprTrees args wellFormed.2⟩

theorem writable_argTrees (args : List (String × Expr)) (wellFormed : ArgsWellFormed args) :
    Tree.AllWritable (argTrees args) := by
  match args with
  | [] => trivial
  | (name, value) :: args =>
      exact ⟨⟨trivial, value.writable_tree wellFormed.1, trivial⟩,
        writable_argTrees args wellFormed.2⟩

end

mutual

theorem Stmt.writable_tree (stmt : Stmt) (wellFormed : stmt.WellFormed) : stmt.tree.Writable := by
  match stmt with
  | .set var value =>
      exact ⟨(by decide : IsSymbol "set"), trivial, value.writable_tree wellFormed, trivial⟩
  | .change var amount =>
      exact ⟨(by decide : IsSymbol "change"), trivial, amount.writable_tree wellFormed,
        trivial⟩
  | .op opcode args =>
      exact ⟨(by decide : IsSymbol "op"), trivial, writable_argTrees args wellFormed⟩
  | .call signature args =>
      exact ⟨(by decide : IsSymbol "call"), trivial, writable_exprTrees args wellFormed.2⟩
  | .yield => exact ⟨(by decide : IsSymbol "yield"), trivial⟩
  | .times count body =>
      exact ⟨(by decide : IsSymbol "repeat"), count.writable_tree wellFormed.1,
        writable_stmtTrees body wellFormed.2⟩
  | .forever body =>
      exact ⟨(by decide : IsSymbol "forever"), writable_stmtTrees body wellFormed⟩
  | .whileTrue cond body =>
      exact ⟨(by decide : IsSymbol "while"), cond.writable_tree wellFormed.1,
        writable_stmtTrees body wellFormed.2⟩
  | .untilTrue cond body =>
      exact ⟨(by decide : IsSymbol "until"), cond.writable_tree wellFormed.1,
        writable_stmtTrees body wellFormed.2⟩
  | .ifElse cond yes [] =>
      exact ⟨(by decide : IsSymbol "if"), cond.writable_tree wellFormed.1,
        ⟨(by decide : IsSymbol "then"), writable_stmtTrees yes wellFormed.2.1⟩, trivial⟩
  | .ifElse cond yes (first :: rest) =>
      exact ⟨(by decide : IsSymbol "if"), cond.writable_tree wellFormed.1,
        ⟨(by decide : IsSymbol "then"), writable_stmtTrees yes wellFormed.2.1⟩,
        ⟨(by decide : IsSymbol "else"), first.writable_tree wellFormed.2.2.1,
          writable_stmtTrees rest wellFormed.2.2.2⟩, trivial⟩
  | .ret none => exact ⟨(by decide : IsSymbol "return"), trivial⟩
  | .ret (some value) =>
      exact ⟨(by decide : IsSymbol "return"), value.writable_tree wellFormed, trivial⟩

theorem writable_stmtTrees (body : List Stmt) (wellFormed : StmtsWellFormed body) :
    Tree.AllWritable (stmtTrees body) := by
  match body with
  | [] => trivial
  | stmt :: body => exact ⟨stmt.writable_tree wellFormed.1, writable_stmtTrees body wellFormed.2⟩

end

theorem writable_names (names : List String) : Tree.AllWritable (names.map .text) := by
  induction names with
  | nil => trivial
  | cons name names ih => exact ⟨trivial, ih⟩

theorem Script.writable_tree {script : Script} (wellFormed : StmtsWellFormed script.body) :
    script.tree.Writable :=
  ⟨(by decide : IsSymbol "script"), writable_names script.params,
    writable_stmtTrees script.body wellFormed⟩

/-- A printed script can be size-reduced, and the result spells the script. -/
theorem Script.spells_minify {script : Script} (wellFormed : StmtsWellFormed script.body) :
    ∃ text, Form.minify script.print = .ok text ∧ Spells true text.toList script.tree.lexemes :=
  Form.minify_of_spells (Script.spells_print wellFormed) (Script.writable_tree wellFormed)

end StepCode
