import StepCode.Json.Printer
import StepCode.Json.Reader
import StepCode.Proofs.Json.Numbers

/-!
# The compact text of a tree is read back

Texts and containers always read back from what is written for them, so a tree does if its numbers do and
its containers are not nested too deep.
-/

namespace StepCode.Json

variable {depth fuel : Nat} {after : Cursor}

/-! ## Texts -/

theorem readText_simple {e plain : Char} (isEscape : simpleEscape? e = some plain) (read rest : List Char)
    (offset : Nat) :
    readText read ('\\' :: e :: rest) offset = readText (plain :: read) rest (offset + 2) := by
  have notCode : e ≠ 'u' := by
    rintro rfl
    cases isEscape
  rw [readText.eq_def]
  simp only [Char.reduceEq, if_false, if_true, notCode, isEscape]

/-- The last two digits of a control character give it back. -/
theorem hexQuad?_hexDigit {n : Nat} (isControl : n < 32) :
    hexQuad? '0' '0' (hexDigit (n / 16)) (hexDigit (n % 16)) = some n := by
  interval_cases n <;> decide

theorem readText_code {c : Char} (isControl : c.toNat < 32) (read rest : List Char) (offset : Nat) :
    readText read ('\\' :: 'u' :: '0' :: '0' :: hexDigit (c.toNat / 16) :: hexDigit (c.toNat % 16) :: rest)
      offset = readText (c :: read) rest (offset + 6) := by
  have notLow : isLowSurrogate c.toNat = false := by
    rw [isLowSurrogate, Bool.and_eq_false_iff]
    exact .inl (decide_eq_false (by omega))
  have notHigh : isHighSurrogate c.toNat = false := by
    rw [isHighSurrogate, Bool.and_eq_false_iff]
    exact .inl (decide_eq_false (by omega))
  rw [readText.eq_def]
  simp only [Char.reduceEq, if_false, if_true, hexQuad?_hexDigit isControl, notLow, notHigh,
    Bool.false_eq_true, Char.ofNat_toNat]

theorem readText_escaped (c : Char) (read rest : List Char) (offset : Nat) :
    ∃ size, readText read (escapeChar c ++ rest) offset = readText (c :: read) rest (offset + size) := by
  have simple {e : Char} (isEscape : simpleEscape? e = some c) :
      ∃ size, readText read (['\\', e] ++ rest) offset = readText (c :: read) rest (offset + size) :=
    ⟨2, readText_simple isEscape read rest offset⟩
  unfold escapeChar
  split_ifs with quote backslash newLine carriage tab back feed control
  · exact simple (by rw [quote]; rfl)
  · exact simple (by rw [backslash]; rfl)
  · exact simple (by rw [newLine]; rfl)
  · exact simple (by rw [carriage]; rfl)
  · exact simple (by rw [tab]; rfl)
  · exact simple (by rw [← Char.ofNat_toNat c, back]; rfl)
  · exact simple (by rw [← Char.ofNat_toNat c, feed]; rfl)
  · exact ⟨6, readText_code control read rest offset⟩
  · refine ⟨c.utf8Size, ?_⟩
    rw [List.singleton_append, readText.eq_def]
    simp only [quote, backslash, control, if_false]

theorem readText_quoted (chars read rest : List Char) (offset : Nat) :
    ∃ stop, readText read (chars.flatMap escapeChar ++ '"' :: rest) offset =
      .ok (String.ofList (read.reverse ++ chars), ⟨rest, stop⟩) := by
  induction chars generalizing read offset with
  | nil => exact ⟨_, by rw [List.flatMap_nil, List.nil_append, readText.eq_def, List.append_nil]; rfl⟩
  | cons c chars ih =>
      obtain ⟨size, passed⟩ := readText_escaped c read (chars.flatMap escapeChar ++ '"' :: rest) offset
      obtain ⟨stop, done⟩ := ih (c :: read) (offset + size)
      refine ⟨stop, ?_⟩
      rw [List.flatMap_cons, List.append_assoc, passed, done, List.reverse_cons, List.append_assoc]
      rfl

/-! ## Values -/

mutual

/-- Whether the text of a tree can be read: containers are nested less than `depth` deep, integers have
64 bits, and other numbers read back by themselves. -/
def isLegible : (depth : Nat) → Json → Bool
  | depth, .array items => 1 < depth && areLegible (depth - 1) items
  | depth, .object members => 1 < depth && haveLegible (depth - 1) members
  | _, .int i => -2 ^ 63 ≤ i && i < 2 ^ 64
  | _, .float x =>
      match wholeNumber? (floatText x).toList with
      | some (.float y) => y = x
      | _ => false
  | _, .null | _, .bool _ | _, .text _ => true

def areLegible : (depth : Nat) → List Json → Bool
  | _, [] => true
  | depth, item :: rest => isLegible depth item && areLegible depth rest

def haveLegible : (depth : Nat) → List (String × Json) → Bool
  | _, [] => true
  | depth, (_, value) :: rest => isLegible depth value && haveLegible depth rest

end

theorem skipBlanks_of_not_blank {c : Char} (notBlank : Cursor.isBlank c = false) (rest : List Char)
    (offset : Nat) : Cursor.skipBlanks ⟨c :: rest, offset⟩ = ⟨c :: rest, offset⟩ := by
  simp [Cursor.skipBlanks, notBlank]

/-- Wherever the text of a tree stands in front of what closes, it is read as the tree. -/
structure Readable (depth : Nat) (tree : Json) : Prop where
  starts : ∃ c rest, tree.compact.toList = c :: rest ∧ Cursor.isBlank c = false ∧ c ≠ ']'
  reads : ∀ fuel rest offset, 2 * tree.compact.toList.length ≤ fuel → Closes rest →
    ∃ stop, readValue fuel depth ⟨tree.compact.toList ++ rest, offset⟩ = .ok (tree, ⟨rest, stop⟩)

/-- A scalar is read alike with all fuel but none. -/
theorem Readable.of_scalar {tree : Json} {c : Char} {chars : List Char}
    (isText : tree.compact.toList = c :: chars) (notBlank : Cursor.isBlank c = false) (notEnd : c ≠ ']')
    (reads : ∀ fuel rest offset, Closes rest → ∃ stop,
      readValue (fuel + 1) depth ⟨c :: chars ++ rest, offset⟩ = .ok (tree, ⟨rest, stop⟩)) :
    Readable depth tree where
  starts := ⟨c, chars, isText, notBlank, notEnd⟩
  reads fuel rest offset enough closes := by
    rw [isText, List.length_cons] at enough
    obtain ⟨fuel, rfl⟩ := Nat.exists_eq_add_one.mpr (show 0 < fuel by omega)
    rw [isText]
    exact reads fuel rest offset closes

theorem readable_null : Readable depth .null :=
  .of_scalar (c := 'n') rfl rfl (by decide) fun _ _ _ _ => ⟨_, rfl⟩

theorem readable_bool (b : Bool) : Readable depth (.bool b) := by
  cases b with
  | false => exact .of_scalar (c := 'f') rfl rfl (by decide) fun _ _ _ _ => ⟨_, rfl⟩
  | true => exact .of_scalar (c := 't') rfl rfl (by decide) fun _ _ _ _ => ⟨_, rfl⟩

theorem toList_quote (s : String) :
    (quote s).toList = '"' :: (s.toList.flatMap escapeChar ++ ['"']) := by
  rw [quote, String.toList_ofList, List.cons_append]

theorem readText_quote (s : String) (rest : List Char) (offset : Nat) :
    ∃ stop, readText [] (s.toList.flatMap escapeChar ++ ['"'] ++ rest) offset = .ok (s, ⟨rest, stop⟩) := by
  obtain ⟨stop, done⟩ := readText_quoted s.toList [] rest offset
  exact ⟨stop, by rw [List.append_assoc, List.singleton_append, done, List.reverse_nil,
    List.nil_append, String.ofList_toList]⟩

theorem readable_text (s : String) : Readable depth (.text s) := by
  refine .of_scalar (toList_quote s) rfl (by decide) fun fuel rest offset _ => ?_
  obtain ⟨stop, done⟩ := readText_quote s rest (offset + 1)
  have read : readValue (fuel + 1) depth
      ⟨'"' :: (s.toList.flatMap escapeChar ++ ['"']) ++ rest, offset⟩ =
        (((readText [] (s.toList.flatMap escapeChar ++ ['"'] ++ rest) (offset + 1)).map
          fun found => (Json.text found.1, found.2)).mapError Fault.broken) := rfl
  exact ⟨stop, by rw [read, done]; rfl⟩

theorem not_blank_of_isDigit {c : Char} (isDigit : c.isDigit = true) : Cursor.isBlank c = false := by
  have apart (d : Char) := @ne_of_isDigit c d isDigit
  simp [Cursor.isBlank, apart ' ' rfl, apart '\n' rfl, apart '\t' rfl, apart '\r' rfl]

theorem readValue_digit {c : Char} (isDigit : c.isDigit = true) (fuel : Nat) (rest : List Char)
    (offset : Nat) : readValue (fuel + 1) depth ⟨c :: rest, offset⟩ =
      (readNumber false ⟨c :: rest, offset⟩).mapError Fault.broken := by
  have apart (d : Char) := @ne_of_isDigit c d isDigit
  rw [readValue, skipBlanks_of_not_blank (not_blank_of_isDigit isDigit)]
  simp only [apart '[' rfl, apart '\x7b' rfl, apart '"' rfl, apart 'n' rfl, apart 't' rfl,
    apart 'f' rfl, apart '-' rfl, isDigit, if_true, if_false]

/-- A number that is read from its text is read in any place. -/
theorem readable_of_wholeNumber? {tree : Json}
    (isNumber : wholeNumber? tree.compact.toList = some tree) : Readable depth tree := by
  obtain ⟨stop, done⟩ := wholeNumber?_eq_some.mp isNumber
  unfold readSigned at done
  split at done
  next digits isText =>
    refine .of_scalar isText rfl (by decide) fun fuel rest offset closes => ?_
    obtain ⟨stop, done⟩ := readNumber_append closes done (offset + 1)
    have read : readValue (fuel + 1) depth ⟨'-' :: digits ++ rest, offset⟩ =
      (readNumber true ⟨digits ++ rest, offset + 1⟩).mapError Fault.broken := rfl
    exact ⟨stop, by rw [read, done]; rfl⟩
  next =>
    obtain ⟨c, digits, isText, isDigit⟩ := starts_of_readNumber done
    refine .of_scalar isText (not_blank_of_isDigit isDigit) (ne_of_isDigit isDigit rfl)
      fun fuel rest offset closes => ?_
    obtain ⟨stop, done⟩ := readNumber_append closes done offset
    rw [isText] at done
    exact ⟨stop, by rw [List.cons_append, readValue_digit isDigit, ← List.cons_append, done]; rfl⟩

/-! ## Arrays -/

/-- The items of an array behind its first one, each with the comma in front of it. -/
def furtherItems (items : List Json) : List Char :=
  items.flatMap fun item => ',' :: item.compact.toList

theorem toList_compactItems (item : Json) (items : List Json) :
    (compactItems (item :: items)).toList = item.compact.toList ++ furtherItems items := by
  induction items generalizing item with
  | nil => rw [compactItems, furtherItems, List.flatMap_nil, List.append_nil]
  | cons next items ih =>
      rw [compactItems, String.toList_append, String.toList_append, ih]
      · simp [furtherItems]
      · exact nofun

theorem readItems_first {c : Char} (notBlank : Cursor.isBlank c = false) (notEnd : c ≠ ']')
    {item : Json} {rest : List Char} {offset : Nat}
    (reads : readValue fuel depth ⟨c :: rest, offset⟩ = .ok (item, after)) :
    readItems (fuel + 1) depth [] ⟨c :: rest, offset⟩ = readItems fuel depth [item] after := by
  rw [readItems, skipBlanks_of_not_blank notBlank]
  simp only [notEnd, if_false, List.isEmpty_nil, if_true, reads]

theorem readItems_comma {c : Char} (notBlank : Cursor.isBlank c = false) (notEnd : c ≠ ']')
    {item last : Json} {read : List Json} {rest : List Char} {offset : Nat}
    (reads : readValue fuel depth ⟨c :: rest, offset + 1⟩ = .ok (item, after)) :
    readItems (fuel + 1) depth (last :: read) ⟨',' :: c :: rest, offset⟩ =
      readItems fuel depth (item :: last :: read) after := by
  have size : Char.utf8Size ',' = 1 := rfl
  rw [readItems, skipBlanks_of_not_blank (by decide)]
  simp only [Char.reduceEq, if_false, List.isEmpty_cons, Bool.false_eq_true, if_true, size,
    skipBlanks_of_not_blank notBlank, notEnd, reads]

theorem closes_furtherItems (items : List Json) (rest : List Char) :
    Closes (furtherItems items ++ ']' :: rest) := by
  cases items with
  | nil => exact closes_bracket
  | cons item items => exact closes_comma

/-- Each item costs a call for itself and those for reading it. -/
theorem readItems_further {items : List Json} (readable : ∀ item ∈ items, Readable depth item)
    (fuel : Nat) (last : Json) (read : List Json) (rest : List Char) (offset : Nat)
    (enough : 2 * (furtherItems items).length < fuel) :
    ∃ stop, readItems fuel depth (last :: read) ⟨furtherItems items ++ ']' :: rest, offset⟩ =
      .ok (.array ((last :: read).reverse ++ items), ⟨rest, stop⟩) := by
  induction items generalizing fuel last read offset with
  | nil =>
      obtain ⟨fuel, rfl⟩ := Nat.exists_eq_add_one.mpr (show 0 < fuel by omega)
      exact ⟨_, by rw [furtherItems, List.flatMap_nil, List.nil_append, List.append_nil]; rfl⟩
  | cons item items ih =>
      obtain ⟨here, later⟩ := List.forall_mem_cons.mp readable
      obtain ⟨c, tail, isText, notBlank, notEnd⟩ := here.starts
      have text : furtherItems (item :: items) = ',' :: (c :: tail ++ furtherItems items) := by
        rw [furtherItems, List.flatMap_cons, isText]
        rfl
      rw [text, List.length_cons, List.length_append] at enough
      obtain ⟨fuel, rfl⟩ := Nat.exists_eq_add_one.mpr (show 0 < fuel by omega)
      obtain ⟨behind, reads⟩ := here.reads fuel _ (offset + 1) (by rw [isText]; omega)
        (closes_furtherItems items rest)
      obtain ⟨stop, done⟩ := ih later fuel item (last :: read) behind (by omega)
      refine ⟨stop, ?_⟩
      rw [isText, List.cons_append] at reads
      rw [text, List.cons_append, List.append_assoc, List.cons_append,
        readItems_comma notBlank notEnd reads, done]
      simp

theorem toList_array (items : List Json) :
    (array items).compact.toList = '[' :: ((compactItems items).toList ++ [']']) := by
  rw [compact, String.toList_append, String.toList_append]
  rfl

theorem readItems_all {items : List Json} (readable : ∀ item ∈ items, Readable depth item) (fuel : Nat)
    (rest : List Char) (offset : Nat) (enough : 2 * (compactItems items).toList.length < fuel) :
    ∃ stop, readItems fuel depth [] ⟨(compactItems items).toList ++ ']' :: rest, offset⟩ =
      .ok (.array items, ⟨rest, stop⟩) := by
  obtain ⟨fuel, rfl⟩ := Nat.exists_eq_add_one.mpr (show 0 < fuel by omega)
  obtain _ | ⟨item, items⟩ := items
  · exact ⟨_, rfl⟩
  obtain ⟨here, later⟩ := List.forall_mem_cons.mp readable
  obtain ⟨c, tail, isText, notBlank, notEnd⟩ := here.starts
  rw [toList_compactItems, List.length_append] at enough
  have nonempty : 0 < item.compact.toList.length := by rw [isText]; exact Nat.succ_pos _
  obtain ⟨behind, reads⟩ := here.reads fuel _ offset (by omega) (closes_furtherItems items rest)
  obtain ⟨stop, done⟩ := readItems_further later fuel item [] rest behind (by omega)
  refine ⟨stop, ?_⟩
  rw [toList_compactItems, List.append_assoc]
  rw [isText, List.cons_append] at reads ⊢
  rw [readItems_first notBlank notEnd reads, done]
  rfl

theorem readable_array {items : List Json} (readable : ∀ item ∈ items, Readable (depth + 1) item) :
    Readable (depth + 2) (.array items) where
  starts := ⟨'[', _, toList_array items, rfl, by decide⟩
  reads fuel rest offset enough closes := by
    rw [toList_array, List.length_cons, List.length_append] at enough
    obtain ⟨fuel, rfl⟩ := Nat.exists_eq_add_one.mpr (show 0 < fuel by omega)
    obtain ⟨stop, done⟩ := readItems_all readable fuel rest (offset + 1) (by omega)
    have read : readValue (fuel + 1) (depth + 2)
        ⟨'[' :: ((compactItems items).toList ++ [']']) ++ rest, offset⟩ =
          readItems fuel (depth + 1) [] ⟨(compactItems items).toList ++ [']'] ++ rest, offset + 1⟩ := rfl
    exact ⟨stop, by rw [toList_array, read, List.append_assoc, List.singleton_append, done]⟩

/-! ## Objects -/

/-- A member with its name. -/
def memberText (member : String × Json) : List Char :=
  (quote member.1).toList ++ ':' :: member.2.compact.toList

/-- The members of an object behind its first one, each with the comma in front of it. -/
def furtherMembers (members : List (String × Json)) : List Char :=
  members.flatMap fun member => ',' :: memberText member

theorem toList_compactMembers (member : String × Json) (members : List (String × Json)) :
    (compactMembers (member :: members)).toList = memberText member ++ furtherMembers members := by
  induction members generalizing member with
  | nil => simp [compactMembers, furtherMembers, memberText]
  | cons next members ih =>
      rw [compactMembers, String.toList_append, String.toList_append, ih]
      · simp [furtherMembers, memberText]
      · exact nofun

/-- Passing the name of a member and its value. -/
theorem readMembers_first {name : String} {value : Json} {rest : List Char} {offset colon : Nat}
    {tail : List Char} (named : readText [] rest (offset + 1) = .ok (name, ⟨':' :: tail, colon⟩))
    (reads : readValue fuel depth ⟨tail, colon + 1⟩ = .ok (value, after)) :
    readMembers (fuel + 1) depth [] ⟨'"' :: rest, offset⟩ =
      readMembers fuel depth [(name, value)] after := by
  have size : Char.utf8Size '"' = 1 := rfl
  rw [readMembers, skipBlanks_of_not_blank (by decide)]
  simp only [Char.reduceEq, if_false, List.isEmpty_nil, if_true, size, named,
    skipBlanks_of_not_blank (c := ':') rfl, reads]

theorem readMembers_comma {name : String} {value : Json} {last : String × Json}
    {read : List (String × Json)} {rest : List Char} {offset colon : Nat}
    {tail : List Char} (named : readText [] rest (offset + 2) = .ok (name, ⟨':' :: tail, colon⟩))
    (reads : readValue fuel depth ⟨tail, colon + 1⟩ = .ok (value, after)) :
    readMembers (fuel + 1) depth (last :: read) ⟨',' :: '"' :: rest, offset⟩ =
      readMembers fuel depth ((name, value) :: last :: read) after := by
  have size : Char.utf8Size ',' = 1 := rfl
  rw [readMembers, skipBlanks_of_not_blank (by decide)]
  simp only [Char.reduceEq, if_false, List.isEmpty_cons, Bool.false_eq_true, if_true, size, named,
    skipBlanks_of_not_blank (c := '"') rfl, skipBlanks_of_not_blank (c := ':') rfl, reads]

theorem closes_furtherMembers (members : List (String × Json)) (rest : List Char) :
    Closes (furtherMembers members ++ '\x7d' :: rest) := by
  cases members with
  | nil => exact closes_brace
  | cons member members => exact closes_comma

theorem memberText_append (member : String × Json) (rest : List Char) :
    memberText member ++ rest = '"' :: (member.1.toList.flatMap escapeChar ++ ['"'] ++
      ':' :: (member.2.compact.toList ++ rest)) := by
  simp [memberText, toList_quote]

theorem length_memberText (member : String × Json) :
    member.2.compact.toList.length < (memberText member).length := by
  rw [memberText, List.length_append, List.length_cons]
  omega

/-- Each member costs a call for itself and those for reading its value. -/
theorem readMembers_further {members : List (String × Json)}
    (readable : ∀ member ∈ members, Readable depth member.2) (fuel : Nat) (last : String × Json)
    (read : List (String × Json)) (rest : List Char) (offset : Nat)
    (enough : 2 * (furtherMembers members).length < fuel) :
    ∃ stop, readMembers fuel depth (last :: read) ⟨furtherMembers members ++ '\x7d' :: rest, offset⟩ =
      .ok (.object ((last :: read).reverse ++ members), ⟨rest, stop⟩) := by
  induction members generalizing fuel last read offset with
  | nil =>
      obtain ⟨fuel, rfl⟩ := Nat.exists_eq_add_one.mpr (show 0 < fuel by omega)
      exact ⟨_, by rw [furtherMembers, List.flatMap_nil, List.nil_append, List.append_nil]; rfl⟩
  | cons member members ih =>
      obtain ⟨here, later⟩ := List.forall_mem_cons.mp readable
      have text : furtherMembers (member :: members) =
          ',' :: (memberText member ++ furtherMembers members) := rfl
      have inside := length_memberText member
      rw [text, List.length_cons, List.length_append] at enough
      obtain ⟨fuel, rfl⟩ := Nat.exists_eq_add_one.mpr (show 0 < fuel by omega)
      obtain ⟨colon, named⟩ := readText_quote member.1
        (':' :: (member.2.compact.toList ++ (furtherMembers members ++ '\x7d' :: rest))) (offset + 2)
      obtain ⟨behind, reads⟩ := here.reads fuel _ (colon + 1) (by omega)
        (closes_furtherMembers members rest)
      obtain ⟨stop, done⟩ := ih later fuel member (last :: read) behind (by omega)
      refine ⟨stop, ?_⟩
      rw [text, List.cons_append, List.append_assoc, memberText_append, readMembers_comma named reads,
        done]
      simp

theorem toList_object (members : List (String × Json)) :
    (object members).compact.toList = '\x7b' :: ((compactMembers members).toList ++ ['\x7d']) := by
  rw [compact, String.toList_append, String.toList_append]
  rfl

theorem readMembers_all {members : List (String × Json)}
    (readable : ∀ member ∈ members, Readable depth member.2) (fuel : Nat) (rest : List Char)
    (offset : Nat) (enough : 2 * (compactMembers members).toList.length < fuel) :
    ∃ stop, readMembers fuel depth [] ⟨(compactMembers members).toList ++ '\x7d' :: rest, offset⟩ =
      .ok (.object members, ⟨rest, stop⟩) := by
  obtain ⟨fuel, rfl⟩ := Nat.exists_eq_add_one.mpr (show 0 < fuel by omega)
  obtain _ | ⟨member, members⟩ := members
  · exact ⟨_, rfl⟩
  obtain ⟨here, later⟩ := List.forall_mem_cons.mp readable
  have inside := length_memberText member
  rw [toList_compactMembers, List.length_append] at enough
  obtain ⟨colon, named⟩ := readText_quote member.1
    (':' :: (member.2.compact.toList ++ (furtherMembers members ++ '\x7d' :: rest))) (offset + 1)
  obtain ⟨behind, reads⟩ := here.reads fuel _ (colon + 1) (by omega)
    (closes_furtherMembers members rest)
  obtain ⟨stop, done⟩ := readMembers_further later fuel member [] rest behind (by omega)
  refine ⟨stop, ?_⟩
  rw [toList_compactMembers, List.append_assoc, memberText_append, readMembers_first named reads, done]
  rfl

theorem readable_object {members : List (String × Json)}
    (readable : ∀ member ∈ members, Readable (depth + 1) member.2) :
    Readable (depth + 2) (.object members) where
  starts := ⟨'\x7b', _, toList_object members, rfl, by decide⟩
  reads fuel rest offset enough closes := by
    rw [toList_object, List.length_cons, List.length_append] at enough
    obtain ⟨fuel, rfl⟩ := Nat.exists_eq_add_one.mpr (show 0 < fuel by omega)
    obtain ⟨stop, done⟩ := readMembers_all readable fuel rest (offset + 1) (by omega)
    have read : readValue (fuel + 1) (depth + 2)
        ⟨'\x7b' :: ((compactMembers members).toList ++ ['\x7d']) ++ rest, offset⟩ =
          readMembers fuel (depth + 1) []
            ⟨(compactMembers members).toList ++ ['\x7d'] ++ rest, offset + 1⟩ := rfl
    exact ⟨stop, by rw [toList_object, read, List.append_assoc, List.singleton_append, done]⟩

/-! ## Trees -/

mutual

theorem readable_of_isLegible : ∀ (depth : Nat) (tree : Json), tree.isLegible depth = true →
    Readable depth tree
  | _, .null, _ => readable_null
  | _, .bool b, _ => readable_bool b
  | _, .text s, _ => readable_text s
  | _, .int i, legible => by
      rw [isLegible, Bool.and_eq_true, decide_eq_true_iff, decide_eq_true_iff] at legible
      exact readable_of_wholeNumber?
        (wholeNumber?_eq_some.mpr (readSigned_int legible.1 legible.2))
  | _, .float x, legible => by
      rw [isLegible] at legible
      split at legible
      next y isNumber =>
        obtain rfl := of_decide_eq_true legible
        exact readable_of_wholeNumber? isNumber
      next => cases legible
  | depth, .array items, legible => by
      rw [isLegible, Bool.and_eq_true, decide_eq_true_iff] at legible
      obtain ⟨depth, rfl⟩ := Nat.exists_eq_add_of_le' legible.1
      exact readable_array (readable_of_areLegible (depth + 1) items legible.2)
  | depth, .object members, legible => by
      rw [isLegible, Bool.and_eq_true, decide_eq_true_iff] at legible
      obtain ⟨depth, rfl⟩ := Nat.exists_eq_add_of_le' legible.1
      exact readable_object (readable_of_haveLegible (depth + 1) members legible.2)

theorem readable_of_areLegible : ∀ (depth : Nat) (items : List Json), areLegible depth items = true →
    ∀ item ∈ items, Readable depth item
  | _, [], _ => nofun
  | depth, item :: rest, legible => by
      rw [areLegible, Bool.and_eq_true] at legible
      exact List.forall_mem_cons.mpr ⟨readable_of_isLegible depth item legible.1,
        readable_of_areLegible depth rest legible.2⟩

theorem readable_of_haveLegible : ∀ (depth : Nat) (members : List (String × Json)),
    haveLegible depth members = true → ∀ member ∈ members, Readable depth member.2
  | _, [], _ => nofun
  | depth, (name, value) :: rest, legible => by
      rw [haveLegible, Bool.and_eq_true] at legible
      exact List.forall_mem_cons.mpr ⟨readable_of_isLegible depth value legible.1,
        readable_of_haveLegible depth rest legible.2⟩

end

/-- The compact text of a legible tree gives back the tree. -/
theorem read_compact {tree : Json} (legible : tree.isLegible depthLimit = true) :
    read tree.compact = .ok tree := by
  have readable := readable_of_isLegible depthLimit tree legible
  obtain ⟨stop, done⟩ := readable.reads (Cursor.start tree.compact).fuel [] 0 (Nat.le_add_right _ _) .nil
  rw [List.append_nil] at done
  unfold read
  dsimp only
  rw [show Cursor.start tree.compact = ⟨tree.compact.toList, 0⟩ from rfl] at done ⊢
  rw [done]
  rfl

end StepCode.Json
