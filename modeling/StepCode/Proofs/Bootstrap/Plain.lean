import StepCode.Proofs.Bootstrap.Compact

/-!
# Plain documents

A document that is not size-reduced holds the accepted sources as they are, each on a line of its
own.  The line break ends a comment that a source ends in.  Behind the last source there is no line
break: if that one ends in a comment, the comment takes in the parenthesis that closes the document.
-/

namespace StepCode

namespace Phase

/-- Outside any token, in a comment or not. -/
def outside (inComment : Bool) : Phase := if inComment then .comment else .gap

theorem outside_run_newline (inComment : Bool) :
    (outside inComment).run ['\n'] = some ([], .gap) := by
  cases inComment <;> rfl

/-- A comment takes in the end of a list. -/
theorem outside_lexemes?_close (inComment : Bool) :
    (outside inComment).lexemes? [')'] = some (if inComment then [] else [.closeList]) := by
  cases inComment <;> rfl

end Phase

namespace Form

/-- The source ends inside a comment. -/
def endsInComment (source : String) : Bool :=
  match Phase.gap.run source.toList with
  | some (_, .comment) => true
  | _ => false

/-- A source whose last token is the end of a list ends outside any token. -/
theorem run_of_closeList {source : String} {lexemes : List Lexeme}
    (spelt : Phase.gap.lexemes? source.toList = some (lexemes ++ [.closeList])) :
    Phase.gap.run source.toList =
      some (lexemes ++ [.closeList], .outside (endsInComment source)) := by
  simp only [Phase.lexemes?, Option.bind_eq_some_iff, Option.map_eq_some_iff] at spelt
  obtain ⟨⟨now, stop⟩, ran, last, finished, together⟩ := spelt
  rw [endsInComment, ran]
  cases stop with
  | gap | comment =>
      obtain rfl := Option.some.inj finished
      rw [← together, List.append_nil]
      rfl
  | text | escape => cases finished
  | word read =>
      -- a word in the end would be the last token
      obtain rfl := Option.some.inj finished
      have last := (List.append_inj' together rfl).2
      simp [Phase.wordAtom] at last

/-- A list that is still open at the end of the source is reported at its parenthesis. -/
theorem readAll_unclosed {source : String} {chars : List Char} (opens : source.toList = '(' :: chars)
    {trees : List Tree} (spelt : Phase.gap.lexemes? chars = some (Tree.allLexemes trees)) :
    readAll source = .error ⟨.unclosedList, ⟨0, 1⟩⟩ := by
  have scanned : Token.scanSource source = .cons (.openList 0) (Token.scan .gap 1 chars) := by
    rw [Token.scanSource, opens]
    rfl
  obtain ⟨fault, tokens⟩ := Tokens.lexemes?_eq_some.mp
    ((Token.lexemes?_scan .gap 1 chars).trans spelt)
  obtain ⟨forms, -, assembled⟩ := assemble_trees trees tokens
  have atEnd := assembled none ⟨[⟨0, []⟩], []⟩ []
  rw [List.append_nil, Assembly.pushAll_pending] at atEnd
  simp [readAll, scanned, Tokens.cons, fault, Assembly.start, assemble, atEnd]

end Form

open Form (endsInComment)

theorem Helper.run_of_parse {source : String} {helper : Helper}
    (parsed : Helper.parse source = .ok helper) :
    Phase.gap.run source.toList =
      some (helper.tree.lexemes, .outside (endsInComment source)) := by
  obtain ⟨lexemes, closes⟩ : ∃ lexemes, helper.tree.lexemes = lexemes ++ [.closeList] :=
    ⟨.openList :: Tree.allLexemes _, rfl⟩
  have spelt := Helper.lexemes?_of_parse parsed
  rw [closes] at spelt ⊢
  exact Form.run_of_closeList spelt

namespace Bootstrap

/-! ## The document -/

/-- Accepted sources, each on a line of its own, spell their helpers.  What the last one ends in is
what the lines end in. -/
theorem run_lines {sources : List String} {originals : List Helper}
    (accepted : List.Forall₂ (fun source helper => Helper.parse source = .ok helper)
      sources originals) (inComment : Bool) :
    (Phase.outside inComment).run (String.join (sources.map ("\n" ++ ·))).toList =
      some (Tree.allLexemes (originals.map Helper.tree),
        .outside ((sources.map endsInComment).getLast?.getD inComment)) := by
  induction accepted generalizing inComment with
  | nil => simp [Phase.run, Tree.allLexemes]
  | @cons source _ _ _ parsed _ ih =>
      have line := Phase.run_append (Phase.outside_run_newline inComment)
        (Phase.run_append (Helper.run_of_parse parsed) (ih (endsInComment source)))
      simpa [Tree.allLexemes, List.getLast?_cons] using line

/-- The last accepted source ends in a comment. -/
def EndsInComment (helpers : Table String) : Prop :=
  ((acceptedSources helpers).map endsInComment).getLast?.getD false = true

instance (helpers : Table String) : Decidable (EndsInComment helpers) :=
  inferInstanceAs (Decidable (_ = true))

theorem shippedTexts_plain {helpers : Table String} {originals : List Helper}
    (accepted : List.Forall₂ (fun source helper => Helper.parse source = .ok helper)
      (acceptedSources helpers) originals) :
    shippedTexts helpers false = supportHelpers.map (·.2) ++ acceptedSources helpers := by
  rw [shippedTexts_eq]
  have all := accepted_all accepted
  generalize supportHelpers.map (·.2) ++ acceptedSources helpers = sources,
    Helper.supporting ++ originals = parses at all
  induction all with
  | nil => rfl
  | cons parsed _ ih => simp [shippedText?, parsed, ih]

/-- The head of a document. -/
theorem spells_head (version : String) :
    Spells false ("bootstrap " ++ Form.quote version).toList
      (Tree.allLexemes [.symbol "bootstrap", .text version]) := by
  have head := (Tree.spells_symbol (by decide : IsSymbol "bootstrap")).append_cons
    ((Spells.blank isBlank_space).append_closed (Tree.spells_text version)) endsWord_space
  simpa [Tree.allLexemes] using head

/-- The tokens of a plain document behind its first parenthesis.  In a comment there is no last
one. -/
theorem lexemes?_plain (version : String) {helpers : Table String} {originals : List Helper}
    (accepted : List.Forall₂ (fun source helper => Helper.parse source = .ok helper)
      (acceptedSources helpers) originals) :
    ∃ chars, (document helpers version false).toList = '(' :: chars ∧
      Phase.gap.lexemes? chars =
        some (Tree.allLexemes (.symbol "bootstrap" :: .text version ::
            (Helper.supporting ++ originals).map Helper.tree) ++
          if EndsInComment helpers then [] else [.closeList]) := by
  have lastIn : ((supportHelpers.map (·.2) ++ acceptedSources helpers).map endsInComment).getLast?.getD
      false = decide (EndsInComment helpers) := by
    have support : (supportHelpers.map (·.2)).map endsInComment = [false, false, false, false] := by
      decide +kernel
    rw [List.map_append, support, List.getLast?_append]
    cases last : ((acceptedSources helpers).map endsInComment).getLast? with
    | none => simp [EndsInComment, last]
    | some inComment => simp [EndsInComment, last]
  have lines := run_lines (accepted_all accepted) false
  rw [lastIn, ← shippedTexts_plain accepted] at lines
  have closed := Phase.lexemes?_append_of_run lines [')']
  refine ⟨("bootstrap " ++ Form.quote version).toList ++
    ((String.join ((shippedTexts helpers false).map ("\n" ++ ·))).toList ++ [')']), ?_, ?_⟩
  · simp [document]
  · rw [spells_head version _ (by simp)]
    rw [show Phase.gap = .outside false from rfl, closed, Phase.outside_lexemes?_close]
    simp [Tree.allLexemes]

/-- Behind a comment that the last accepted source ends in, the document is never closed. -/
theorem parse_plain_of_endsInComment (version : String) {helpers : Table String}
    (inComment : EndsInComment helpers) :
    Bootstrap.parse (document helpers version false) = .error ⟨.unclosedList, ⟨0, 1⟩⟩ := by
  obtain ⟨originals, accepted⟩ := exists_accepted helpers
  obtain ⟨chars, opens, spelt⟩ := lexemes?_plain version accepted
  rw [if_pos inComment, List.append_nil] at spelt
  simp [Bootstrap.parse, Form.readSingle, Form.readAll_unclosed opens spelt, bind, Except.bind]

/-- Any other plain document spells the accepted helpers. -/
theorem lexemes?_plain_of_closed (version : String) {helpers : Table String}
    {originals : List Helper}
    (accepted : List.Forall₂ (fun source helper => Helper.parse source = .ok helper)
      (acceptedSources helpers) originals) (closed : ¬ EndsInComment helpers) :
    Phase.gap.lexemes? (document helpers version false).toList =
      some (Bootstrap.tree ⟨version, Helper.supporting ++ originals⟩).lexemes := by
  obtain ⟨chars, opens, spelt⟩ := lexemes?_plain version accepted
  rw [opens, show '(' :: chars = ['('] ++ chars from rfl, Spells.openList chars (by simp), spelt,
    if_neg closed]
  rfl

/-- Without numbers out of range, a plain document is parsed as the size-reduced one, and carries
exactly the accepted helpers.  But if the last accepted source ends in a comment, the document is not
a list that is closed. -/
theorem plain_documents_break_off_in_a_last_comment (helpers : Table String) (version : String)
    (inRange : ∀ source ∈ acceptedSources helpers, Form.InRange source) :
    ∃ others,
      List.Forall₂ (fun source helper => Helper.parse source = .ok helper)
        (acceptedSources helpers) others ∧
      Bootstrap.parse (document helpers version true) =
        .ok ⟨version, Helper.supporting ++ others⟩ ∧
      Bootstrap.parse (document helpers version false) =
        if EndsInComment helpers then .error ⟨.unclosedList, ⟨0, 1⟩⟩
        else .ok ⟨version, Helper.supporting ++ others⟩ := by
  obtain ⟨originals, accepted⟩ := exists_accepted helpers
  have unchanged : originals.map Helper.spelledOut = originals := by
    refine (List.map_congr_left fun helper mem => ?_).trans (List.map_id originals)
    obtain ⟨source, isSource, parsed⟩ := exists_of_mem_right accepted mem
    exact Helper.spelledOut_of_inRange parsed (inRange source isSource)
  have compact := (parse_compact version accepted).1
  rw [unchanged] at compact
  refine ⟨originals, accepted, compact, ?_⟩
  split
  next inComment => exact parse_plain_of_endsInComment version inComment
  next closed =>
    have writable := writable_carried accepted
    rw [List.map_append, spelledOut_supporting, unchanged] at writable
    exact Bootstrap.parse_of_lexemes? (fun helper mem => (writable helper mem).1)
      (lexemes?_plain_of_closed version accepted closed)

/-- A helper with a remark behind it. -/
def noted : Table String := ⟨[("f", "(helper f () 1) ; note")]⟩

theorem inRange_noted : ∀ entry ∈ noted.entries, Form.InRange entry.2 := by
  have finite : ∀ entry ∈ noted.entries,
      ∀ x ∈ ((Form.readAll entry.2).toOption.map Form.numbers).getD [], x.isInf = false := by
    decide +kernel
  intro entry mem forms read x isNumber
  exact finite entry mem x (by simpa [read, Except.toOption] using isNumber)

theorem noted_helper_is_lost :
    acceptedSources noted = ["(helper f () 1) ; note"] ∧ EndsInComment noted ∧
      Bootstrap.parse (document noted "v" false) = .error ⟨.unclosedList, ⟨0, 1⟩⟩ := by
  have accepted : acceptedSources noted = ["(helper f () 1) ; note"] := by decide +kernel
  have inComment : EndsInComment noted := by decide +kernel
  have inRange : ∀ source ∈ acceptedSources noted, Form.InRange source := by
    rw [accepted]
    simpa [noted] using inRange_noted
  obtain ⟨others, -, -, parsed⟩ := plain_documents_break_off_in_a_last_comment noted "v" inRange
  exact ⟨accepted, inComment, by rw [parsed, if_pos inComment]⟩

/-- Size reduction does change what a document is parsed as. -/
theorem plain_documents_may_differ : ¬ ∀ (helpers : Table String) (version : String),
    (∀ entry ∈ helpers.entries, Form.InRange entry.2) →
      ∃ bootstrap, Bootstrap.parse (document helpers version false) = .ok bootstrap ∧
        Bootstrap.parse (document helpers version true) = .ok bootstrap := by
  intro same
  obtain ⟨bootstrap, plain, -⟩ := same noted "v" inRange_noted
  rw [parse_plain_of_endsInComment "v" (by decide +kernel)] at plain
  cases plain

end Bootstrap

end StepCode
