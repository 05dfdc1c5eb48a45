import StepCode.Bootstrap
import StepCode.Proofs.Script.Reading
import StepCode.Proofs.Text.Base64
import StepCode.Routine.Load

/-!
# Size-reduced documents

A document that is size-reduced carries the support helpers and every accepted helper of the table
behind them, whatever names and sources the table holds.  The support helpers come first, so no
definition can take their place.
-/

namespace StepCode

/-! ## Support helpers -/

namespace Helper

/-- A comparison of the two parameters, by the sign of their order. -/
def ofOrder (name : String) (op : Builtin) : Helper :=
  ⟨name, ["a", "b"], .builtin op [.builtin .cmp [.param "a", .param "b"], .number 0.0]⟩

def isStuck : Helper := ⟨"is_stuck", [], .builtin .gt [.builtin .elapsed [], .number 500.0]⟩

/-- The definitions that every document carries, in order. -/
def supporting : List Helper :=
  [ofOrder "compare_equal" .same, ofOrder "less_than" .lt, ofOrder "greater_than" .gt, isStuck]

theorem wellFormed_ofOrder (name : String) {op : Builtin} (arity : op.arity = .exactly 2) :
    (ofOrder name op).body.WellFormed :=
  ⟨by rw [arity]; rfl, ⟨rfl, trivial, trivial, trivial⟩, Number.readsBack_of_isFinite (by decide), trivial⟩

/-- The support helpers are what their sources are parsed as. -/
theorem parse_support : List.Forall₂
    (fun helper entry => helper.name = entry.1 ∧ Helper.parse entry.2 = .ok helper)
    supporting Bootstrap.supportHelpers := by
  have halfSecond : Number.ReadsBack 500.0 := Number.readsBack_of_isFinite (by decide)
  have order : ∀ {name source op}, op.arity = .exactly 2 →
      Phase.gap.run source.toList = some ((ofOrder name op).tree.lexemes, .gap) →
        name = name ∧ Helper.parse source = .ok (ofOrder name op) := fun arity ran =>
    ⟨rfl, parse_of_spells (wellFormed_ofOrder _ arity) (Spells.of_run ran)⟩
  refine .cons (order rfl (by decide +kernel)) (.cons (order rfl (by decide +kernel))
    (.cons (order rfl (by decide +kernel)) (.cons ⟨rfl, ?_⟩ .nil)))
  have wellFormed : isStuck.body.WellFormed := ⟨rfl, ⟨rfl, trivial⟩, halfSecond, trivial⟩
  exact parse_of_spells wellFormed (Spells.of_run (by decide +kernel))

end Helper

/-- A helper that is approved stays approved, whatever follows. -/
theorem approvedHelpers_append {helpers others : List Helper} {name : String} {helper : Helper}
    (found : (approvedHelpers helpers).get? name = some helper) :
    (approvedHelpers (helpers ++ others)).get? name = some helper := by
  unfold approvedHelpers at found ⊢
  rw [List.foldl_append]
  generalize List.foldl _ Table.empty helpers = table at found
  induction others generalizing table with
  | nil => exact found
  | cons other rest ih =>
      rw [List.foldl_cons]
      refine ih _ ?_
      split
      next => exact found
      next free =>
        have apart : name ≠ other.name := by
          rintro rfl
          simp [Table.contains, found] at free
        rw [Table.get?_insert, if_neg apart, found]

theorem approvedHelpers_supporting :
    ∀ helper ∈ Helper.supporting,
      (approvedHelpers Helper.supporting).get? helper.name = some helper := by
  simp [Helper.supporting, approvedHelpers, Helper.ofOrder, Helper.isStuck, Table.contains,
    Table.get?_insert]

namespace Bootstrap

/-! ## Sources -/

/-- The sources of a table that are accepted, in table order: those that are parsed as a helper, under
a name that is no support name. -/
def acceptedSources (helpers : Table String) : List String :=
  (helpers.entries.filter fun (name, source) =>
    !(supportHelpers.map (·.1)).contains name && (Helper.parse source).isOk).map (·.2)

theorem shippedTexts_eq (helpers : Table String) (compact : Bool) :
    shippedTexts helpers compact =
      (supportHelpers.map (·.2) ++ acceptedSources helpers).filterMap (shippedText? compact) := by
  have rejected : ∀ source, (Helper.parse source).isOk = false →
      shippedText? compact source = none := by
    intro source notOk
    unfold shippedText?
    cases parsed : Helper.parse source with
    | error => rfl
    | ok => simp [parsed, Except.isOk, Except.toBool] at notOk
  simp only [shippedTexts, acceptedSources, List.filterMap_append, List.filterMap_map,
    List.filterMap_filter]
  congr 1
  refine congrArg (List.filterMap · helpers.entries) (funext fun entry => ?_)
  obtain ⟨name, source⟩ := entry
  cases isOk : (Helper.parse source).isOk with
  | false => simp [rejected source isOk]
  | true => rw [Bool.and_true]; rfl

/-- What the accepted sources are parsed as. -/
theorem exists_accepted (helpers : Table String) : ∃ originals,
    List.Forall₂ (fun source helper => Helper.parse source = .ok helper)
      (acceptedSources helpers) originals := by
  have accepted : ∀ source ∈ acceptedSources helpers, ∃ helper,
      Helper.parse source = .ok helper := by
    intro source mem
    obtain ⟨entry, kept, rfl⟩ := List.mem_map.mp mem
    have isOk := (Bool.and_eq_true_iff.mp (List.mem_filter.mp kept).2).2
    cases parsed : Helper.parse entry.2 with
    | error => simp [parsed, Except.isOk, Except.toBool] at isOk
    | ok helper => exact ⟨helper, rfl⟩
  generalize acceptedSources helpers = sources at accepted
  induction sources with
  | nil => exact ⟨[], .nil⟩
  | cons source rest ih =>
      obtain ⟨⟨helper, parsed⟩, later⟩ := List.forall_mem_cons.mp accepted
      obtain ⟨originals, areOriginals⟩ := ih later
      exact ⟨helper :: originals, .cons parsed areOriginals⟩

/-! ## The document -/

/-- Texts of helpers, each behind a blank, are items of a list. -/
theorem spellsItems_compact {sources : List String} {originals : List Helper}
    (accepted : List.Forall₂ (fun source helper => Helper.parse source = .ok helper)
      sources originals) :
    SpellsItems
      (String.join ((sources.filterMap (shippedText? true)).map (" " ++ ·))).toList
      ((originals.map Helper.spelledOut).map Helper.tree) := by
  induction accepted with
  | nil => exact .nil
  | @cons source _ _ _ parsed _ ih =>
      obtain ⟨text, minified, spells⟩ := Helper.minify_of_parse parsed
      have isText : shippedText? true source = some text := by
        simp [shippedText?, parsed, minified, Except.toOption]
      have items := SpellsItems.cons isBlank_space spells ih
      simpa [isText] using items

theorem writable_trees {helpers : List Helper}
    (wellFormed : ∀ helper ∈ helpers, helper.body.WellFormed ∧ IsSymbol helper.name) :
    Tree.AllWritable (helpers.map Helper.tree) := by
  induction helpers with
  | nil => trivial
  | cons helper helpers ih =>
      obtain ⟨⟨isBody, isSymbol⟩, later⟩ := List.forall_mem_cons.mp wellFormed
      exact ⟨⟨(by decide : IsSymbol "helper"), isSymbol, writable_names helper.params,
        helper.body.writable_tree isBody, trivial⟩, ih later⟩

theorem spells_notice : Spells false (notice ++ "\n").toList [] := .of_run (by decide +kernel)

theorem documentOfUrl?_url (document : String) :
    documentOfUrl? (url document) = some (notice ++ "\n" ++ document) := by
  simp [documentOfUrl?, url, Text.afterStart?, Text.startsWith, Base64.decode?_encode]

/-- All sources that are shipped, with what they are parsed as. -/
theorem accepted_all {helpers : Table String} {originals : List Helper}
    (accepted : List.Forall₂ (fun source helper => Helper.parse source = .ok helper)
      (acceptedSources helpers) originals) :
    List.Forall₂ (fun source helper => Helper.parse source = .ok helper)
      (supportHelpers.map (·.2) ++ acceptedSources helpers) (Helper.supporting ++ originals) := by
  refine List.rel_append ?_ accepted
  rw [List.forall₂_map_left_iff]
  exact (Helper.parse_support.imp fun _ _ support => support.2).flip

theorem spelledOut_supporting :
    Helper.supporting.map Helper.spelledOut = Helper.supporting := by
  have zero : (0.0 : Float).isInf = false := by decide
  have halfSecond : (500.0 : Float).isInf = false := by decide
  simp [Helper.supporting, Helper.ofOrder, Helper.isStuck, Helper.spelledOut, Expr.spelledOut,
    spelledOutExprs, zero, halfSecond]

theorem writable_carried {helpers : Table String} {originals : List Helper}
    (accepted : List.Forall₂ (fun source helper => Helper.parse source = .ok helper)
      (acceptedSources helpers) originals) :
    ∀ helper ∈ (Helper.supporting ++ originals).map Helper.spelledOut,
      helper.body.WellFormed ∧ IsSymbol helper.name := by
  intro helper mem
  obtain ⟨original, isOriginal, rfl⟩ := List.mem_map.mp mem
  obtain ⟨source, -, parsed⟩ := exists_of_mem_right (accepted_all accepted) isOriginal
  exact Helper.spelledOut_writable parsed

/-- The document carries every accepted helper as it is parsed from its size-reduced text. -/
theorem parse_compact (version : String) {helpers : Table String} {originals : List Helper}
    (accepted : List.Forall₂ (fun source helper => Helper.parse source = .ok helper)
      (acceptedSources helpers) originals) :
    Bootstrap.parse (document helpers version true) =
        .ok ⟨version, Helper.supporting ++ originals.map Helper.spelledOut⟩ ∧
      Bootstrap.parse (notice ++ "\n" ++ document helpers version true) =
        .ok ⟨version, Helper.supporting ++ originals.map Helper.spelledOut⟩ := by
  have writable := writable_carried accepted
  have items := spellsItems_compact (accepted_all accepted)
  rw [← shippedTexts_eq] at items
  rw [← spelledOut_supporting, ← List.map_append]
  generalize (Helper.supporting ++ originals).map Helper.spelledOut = carried at writable items
  have list := SpellsItems.words (by decide : IsSymbol "bootstrap")
    (.cons isBlank_space (Tree.spells_text version) items)
  have unreduced : Spells false
      ("(bootstrap " ++ Form.quote version ++
        String.join ((shippedTexts helpers true).map (" " ++ ·)) ++ ")").toList
      (Bootstrap.tree ⟨version, carried⟩).lexemes := by
    simpa [Bootstrap.tree] using list
  obtain ⟨text, minified, spells⟩ := Form.minify_of_spells unreduced
    ⟨(by decide : IsSymbol "bootstrap"), trivial, writable_trees writable⟩
  have isText : document helpers version true = text := by
    simp [document, minified, Except.toOption]
  have wellFormed := fun helper mem => (writable helper mem).1
  refine ⟨isText ▸ Bootstrap.parse_of_spells wellFormed spells, ?_⟩
  have behind := spells_notice.append_closed spells
  rw [← String.toList_append, List.nil_append, ← isText] at behind
  exact Bootstrap.parse_of_spells wellFormed behind

/-- What an accepted source contributes: the helper that its size-reduced text is parsed as.  Without
numbers out of range, that is the helper which the source itself is parsed as. -/
structure Contributes (source : String) (helper : Helper) : Prop where
  reduced : ∃ text, Form.minify source = .ok text ∧ Helper.parse text = .ok helper
  unchanged : Form.InRange source → Helper.parse source = .ok helper

theorem contributes_of_parse {source : String} {helper : Helper}
    (parsed : Helper.parse source = .ok helper) : Contributes source helper.spelledOut := by
  obtain ⟨text, minified, spells⟩ := Helper.minify_of_parse parsed
  refine ⟨⟨text, minified, ?_⟩, fun inRange => ?_⟩
  · exact Helper.parse_of_spells (Helper.spelledOut_writable parsed).1 spells
  · rw [Helper.spelledOut_of_inRange parsed inRange, parsed]

/-- Whatever a table holds, its size-reduced document can be read back from the URL.  It carries the
support helpers and then, in table order, what each accepted source contributes; and the names of the
support helpers stand for the definitions that are always carried. -/
theorem compact_documents_carry_the_accepted_helpers (helpers : Table String) (version : String) :
    ∃ text others,
      documentOfUrl? (url (document helpers version true)) = some text ∧
      Bootstrap.parse text = .ok ⟨version, Helper.supporting ++ others⟩ ∧
      List.Forall₂ (fun helper entry => helper.name = entry.1 ∧ Helper.parse entry.2 = .ok helper)
        Helper.supporting supportHelpers ∧
      List.Forall₂ Contributes (acceptedSources helpers) others ∧
      ∀ helper ∈ Helper.supporting,
        (approvedHelpers (Helper.supporting ++ others)).get? helper.name = some helper := by
  obtain ⟨originals, accepted⟩ := exists_accepted helpers
  refine ⟨_, originals.map Helper.spelledOut, documentOfUrl?_url _,
    (parse_compact version accepted).2, Helper.parse_support, ?_, fun helper mem => ?_⟩
  · rw [List.forall₂_map_right_iff]
    exact accepted.imp fun _ _ parsed => contributes_of_parse parsed
  · exact approvedHelpers_append (approvedHelpers_supporting helper mem)

end Bootstrap

end StepCode
