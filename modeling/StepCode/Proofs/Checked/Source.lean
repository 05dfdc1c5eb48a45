import StepCode.Proofs.Checked.Parser

/-!
# Places in a source, from reading to parsing

A whole source is read and parsed without leaving its character boundaries or the ends of a list,
and the places that are reported are those of the text they are about.
-/

namespace StepCode

open Form (NestedIn)

namespace Checked

/-- The one form that a source has to consist of. -/
def single (source : String) : Checked Form := do
  let forms ← readAll source
  if forms.length = 1 then itemAt forms 0
  else if forms.length = 0 then blame .emptySource ⟨0, source.utf8ByteSize⟩
  else do
    let second ← itemAt forms 1
    blame .severalForms second.span

def parseScript (source : String) : Checked Script := do
  script (steps source) (← single source)

def parseHelper (source : String) : Checked Helper := do
  helper (steps source) (← single source)

def parseBootstrap (source : String) : Checked Bootstrap := do
  bootstrap (steps source) (← single source)

/-- The span of the error covers a part of the source. -/
def Located (source : String) (error : ParseError) : Prop :=
  ∃ text, error.span.Covers source text

theorem readAll_follows (source : String) :
    Follows (Located source) (readAll source) (Form.readAll source) := by
  obtain ⟨forms, text, last, parts, row, isLast, found, read⟩ | ⟨error, ⟨found, located⟩, read⟩ :=
    readAll_spec source
  · rw [found, read]
    exact .ok forms
  · rw [found, read]
    exact ⟨rfl, fun _ isError => Except.error.inj isError ▸ located⟩

section

variable {source : String} {forms : List Form}

/-- The forms that are read stand in the source. -/
theorem exists_row_of_readAll (read : Form.readAll source = .ok forms) :
    ∃ text last, StandsAt source 0 (text ++ last) ∧ Form.Row 0 forms text ∧ LastNote last := by
  obtain ⟨others, text, last, parts, row, isLast, -, same⟩ | ⟨error, -, fails⟩ := readAll_spec source
  · obtain rfl : others = forms := Except.ok.inj (same.symm.trans read)
    exact ⟨text, last, parts ▸ .start source, row, isLast⟩
  · cases fails.symm.trans read

theorem located_of_known (read : Form.readAll source = .ok forms) {error : ParseError}
    (known : Known forms error) : Located source error := by
  obtain ⟨form, nested, same⟩ := known
  obtain ⟨text, last, stands, row, -⟩ := exists_row_of_readAll read
  obtain ⟨own, behind, stands, written⟩ := nested.stands row stands
  exact ⟨own, same ▸ written.covers stands⟩

/-- The one form of the source is the one that was read. -/
theorem readAll_of_readSingle {form : Form} (read : Form.readSingle source = .ok form) :
    Form.readAll source = .ok [form] := by
  obtain ⟨forms, isForms, single⟩ := bind_eq_ok.mp read
  match forms with
  | [only] => rw [isForms, Except.ok.inj single]
  | [] | _ :: _ :: _ => cases single

theorem single_follows (source : String) :
    Follows (Located source) (single source) (Form.readSingle source) := by
  refine .bind (readAll_follows source) fun forms read => ?_
  match forms with
  | [only] => exact .ok only
  | [] => exact .blame ⟨_, Span.covers_whole source⟩
  | first :: second :: rest =>
      exact .blame (located_of_known read (known_of_nested (.top (by simp)) _))

/-- A form of the source is read to its bottom. -/
theorem shallow_of_mem {form : Form} (read : Form.readAll source = .ok forms) (mem : form ∈ forms) :
    Shallow forms (steps source) form := by
  obtain ⟨text, last, stands, row, -⟩ := exists_row_of_readAll read
  obtain ⟨own, behind, stands, written⟩ := row.stands stands mem
  have inside := length_lt_steps stands
  rw [List.length_append] at inside
  have := written.depth_le
  exact ⟨.top mem, by omega⟩

/-- A unit is parsed from the one form of the source. -/
theorem unit_follows {α : Type} {unit : Nat → Form → Checked α} {ofForm : Form → Parsed α}
    (follows : ∀ {forms form fuel}, Shallow forms fuel form →
      Follows (Known forms) (unit fuel form) (ofForm form))
    (source : String) :
    Follows (Located source) (single source >>= unit (steps source))
      (Form.readSingle source >>= ofForm) := by
  refine .bind (single_follows source) fun form single => ?_
  have read := readAll_of_readSingle single
  obtain ⟨result, known⟩ := follows (shallow_of_mem read (List.mem_singleton_self form))
  exact ⟨result, fun error isError => located_of_known read (known error isError)⟩

end

end Checked

/-- Reading and parsing end, and they stay at the character boundaries of the source and within its
lists.  The forms that are read stand in order, apart from each other and inside the parentheses of
their lists, with only white space and comments in between; and the text of each form reads, on its
own, as that form.  The errors that are reported have places in the source. -/
theorem reading_stays_in_the_source (source : String) :
    ((Checked.readAll source).run = some (Form.readAll source) ∧
      (Checked.parseScript source).run = some (Script.parse source) ∧
      (Checked.parseHelper source).run = some (Helper.parse source) ∧
      (Checked.parseBootstrap source).run = some (Bootstrap.parse source)) ∧
    (∀ forms, Form.readAll source = .ok forms →
      Form.Spread source FinalTrivia 0 source.utf8ByteSize forms ∧
      ∀ form, NestedIn forms form →
        form.span.Proper source ∧ form.Parenthesised source ∧ form.ReadsAlone source) ∧
    ∀ error, Form.readAll source = .error error ∨ Script.parse source = .error error ∨
        Helper.parse source = .error error ∨ Bootstrap.parse source = .error error →
      error.span.Proper source := by
  have forms := Checked.readAll_follows source
  have script : Checked.Follows _ (Checked.parseScript source) (Script.parse source) :=
    Checked.unit_follows Checked.script_follows source
  have helper : Checked.Follows _ (Checked.parseHelper source) (Helper.parse source) :=
    Checked.unit_follows Checked.helper_follows source
  have bootstrap : Checked.Follows _ (Checked.parseBootstrap source) (Bootstrap.parse source) :=
    Checked.unit_follows Checked.bootstrap_follows source
  refine ⟨⟨congrArg ExceptT.run forms.result, congrArg ExceptT.run script.result,
    congrArg ExceptT.run helper.result, congrArg ExceptT.run bootstrap.result⟩, ?_, ?_⟩
  · intro forms read
    obtain ⟨text, last, stands, row, isLast⟩ := Checked.exists_row_of_readAll read
    refine ⟨?_, fun form nested => ?_⟩
    · have standsWhole : StandsAt source 0 (text ++ (last ++ [])) := by rwa [List.append_nil]
      have spread := row.spread FinalTrivia last standsWhole fun gap trivia =>
        ⟨gap, last, rfl, trivia, isLast⟩
      rwa [← stands.utf8ByteSize_eq] at spread
    · obtain ⟨own, behind, stands, written⟩ := nested.stands row stands
      exact ⟨(written.covers stands).proper, written.parenthesised stands,
        written.readsAlone stands⟩
  · rintro error (fails | fails | fails | fails)
    · exact (forms.error error fails).choose_spec.proper
    · exact (script.error error fails).choose_spec.proper
    · exact (helper.error error fails).choose_spec.proper
    · exact (bootstrap.error error fails).choose_spec.proper

/-- Accented text, a comment that is left open and a keyword that is none. -/
def misspelt : String := "; é\n(script (\"ü\") (sat \"ü\" 1.5 ))\n; ö"

theorem reading_misspelt_stays_in_it :
    Script.parse misspelt = .error ⟨.unknownStatement "sat", ⟨21, 24⟩⟩ ∧
      Span.Proper misspelt ⟨21, 24⟩ ∧
      ∃ forms, Form.readAll misspelt = .ok forms ∧
        Form.Spread misspelt FinalTrivia 0 misspelt.utf8ByteSize forms := by
  have fails : (match Script.parse misspelt with
      | .error error => some error
      | .ok _ => none) = some ⟨.unknownStatement "sat", ⟨21, 24⟩⟩ := by
    decide +kernel
  have isOk : (Form.readAll misspelt).toBool = true := by decide +kernel
  obtain ⟨-, forms_spread, errors_proper⟩ := reading_stays_in_the_source misspelt
  cases parsed : Script.parse misspelt with
  | ok => simp [parsed] at fails
  | error error =>
      rw [parsed] at fails
      obtain rfl := Option.some.inj fails
      refine ⟨rfl, errors_proper _ (.inr (.inl parsed)), ?_⟩
      cases read : Form.readAll misspelt with
      | error => simp [read, Except.toBool] at isOk
      | ok forms => exact ⟨forms, rfl, (forms_spread forms read).1⟩

end StepCode
