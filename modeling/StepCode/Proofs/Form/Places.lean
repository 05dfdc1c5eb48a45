import StepCode.ParseError

/-!
# Places in a source

Spans count the bytes of a source in UTF-8, while the scanner goes through its characters.  A span
covers the text that stands between its ends; where it covers any, it lies within the source and
cuts no character.
-/

namespace StepCode

namespace Text

/-- The number of bytes that the characters take. -/
def size : List Char → Nat
  | [] => 0
  | c :: rest => c.utf8Size + size rest

@[simp] theorem size_nil : size [] = 0 := rfl

@[simp] theorem size_cons (c : Char) (rest : List Char) :
    size (c :: rest) = c.utf8Size + size rest := rfl

@[simp] theorem size_append (chars others : List Char) :
    size (chars ++ others) = size chars + size others := by
  induction chars with
  | nil => simp
  | cons c rest ih => simp [ih, Nat.add_assoc]

theorem length_le_size (chars : List Char) : chars.length ≤ size chars := by
  induction chars with
  | nil => exact Nat.le_refl 0
  | cons c rest ih =>
      have := c.utf8Size_pos
      rw [List.length_cons, size_cons]
      omega

theorem utf8ByteSize_ofList (chars : List Char) :
    (String.ofList chars).utf8ByteSize = size chars := by
  induction chars with
  | nil => rfl
  | cons c rest ih =>
      have apart : String.ofList (c :: rest) = String.singleton c ++ String.ofList rest := by
        rw [String.singleton_eq_ofList, ← String.ofList_append, List.singleton_append]
      rw [apart, String.utf8ByteSize_append, String.utf8ByteSize_singleton, ih, size_cons]

@[simp] theorem size_toList (source : String) : size source.toList = source.utf8ByteSize := by
  rw [← utf8ByteSize_ofList, String.ofList_toList]

/-- The characters of the first `count` bytes and those behind them; none where a character would be
cut or there are not that many bytes. -/
def split? : List Char → (count : Nat) → Option (List Char × List Char)
  | chars, 0 => some ([], chars)
  | [], _ + 1 => none
  | c :: rest, count + 1 =>
      if c.utf8Size ≤ count + 1 then
        (split? rest (count + 1 - c.utf8Size)).map fun (front, back) => (c :: front, back)
      else none

theorem split?_append (front back : List Char) :
    split? (front ++ back) (size front) = some (front, back) := by
  induction front with
  | nil => cases back <;> rfl
  | cons c front ih =>
      obtain ⟨count, isCount⟩ : ∃ count, c.utf8Size + size front = count + 1 :=
        Nat.exists_eq_succ_of_ne_zero (by have := c.utf8Size_pos; omega)
      have fits : c.utf8Size ≤ count + 1 := by omega
      have left : count + 1 - c.utf8Size = size front := by omega
      rw [List.cons_append, size_cons, isCount, split?, if_pos fits, left, ih]
      rfl

/-- Where the characters can be split, the count is the size of those in front. -/
theorem eq_append_of_split? {chars front back : List Char} {count : Nat}
    (split : split? chars count = some (front, back)) :
    chars = front ++ back ∧ count = size front := by
  induction chars generalizing count front with
  | nil =>
      cases count with
      | zero =>
          obtain ⟨rfl, rfl⟩ := Prod.mk.inj (Option.some.inj split)
          exact ⟨rfl, rfl⟩
      | succ count => cases split
  | cons c rest ih =>
      cases count with
      | zero =>
          obtain ⟨rfl, rfl⟩ := Prod.mk.inj (Option.some.inj split)
          exact ⟨rfl, rfl⟩
      | succ count =>
          rw [split?] at split
          split at split
          next fits =>
            obtain ⟨⟨others, last⟩, behind, same⟩ := Option.map_eq_some_iff.mp split
            obtain ⟨rfl, rfl⟩ := Prod.mk.inj same
            obtain ⟨rfl, left⟩ := ih behind
            exact ⟨rfl, by rw [size_cons]; omega⟩
          next => cases split

end Text

open Text (size)

/-- A byte of the source, or its end, in front of which a character ends. -/
def IsBoundary (source : String) (at_ : Nat) : Prop := (String.Pos.Raw.mk at_).IsValid source

theorem isBoundary_iff {source : String} {at_ : Nat} :
    IsBoundary source at_ ↔ ∃ front back, source.toList = front ++ back ∧ at_ = size front := by
  unfold IsBoundary
  rw [String.Pos.Raw.isValid_iff_exists_append]
  constructor
  · rintro ⟨front, back, rfl, same⟩
    exact ⟨front.toList, back.toList, String.toList_append, by
      simpa using congrArg String.Pos.Raw.byteIdx same⟩
  · rintro ⟨front, back, same, rfl⟩
    refine ⟨String.ofList front, String.ofList back, ?_, ?_⟩
    · rw [← String.ofList_append, ← same, String.ofList_toList]
    · rw [String.rawEndPos, Text.utf8ByteSize_ofList]

/-- A source can be split at its character boundaries and nowhere else. -/
theorem isSome_split?_iff (source : String) (at_ : Nat) :
    (Text.split? source.toList at_).isSome = true ↔ IsBoundary source at_ := by
  rw [isBoundary_iff, Option.isSome_iff_exists]
  constructor
  · rintro ⟨⟨front, back⟩, split⟩
    exact ⟨front, back, Text.eq_append_of_split? split⟩
  · rintro ⟨front, back, same, rfl⟩
    exact ⟨(front, back), by rw [same, Text.split?_append]⟩

namespace Span

/-- The span starts where it stops or before, lies within the source and cuts no character. -/
structure Proper (source : String) (span : Span) : Prop where
  ordered : span.start ≤ span.stop
  within : span.stop ≤ source.utf8ByteSize
  startsAtBoundary : IsBoundary source span.start
  stopsAtBoundary : IsBoundary source span.stop

/-- The span is a place of the text in the source. -/
def Covers (source : String) (span : Span) (text : List Char) : Prop :=
  ∃ front back, source.toList = front ++ (text ++ back) ∧
    span.start = size front ∧ span.stop = size front + size text

variable {source : String} {span : Span} {text : List Char}

theorem Covers.stop_eq (covers : span.Covers source text) : span.stop = span.start + size text := by
  obtain ⟨front, back, -, starts, stops⟩ := covers
  rw [starts, stops]

theorem Covers.proper (covers : span.Covers source text) : span.Proper source := by
  obtain ⟨front, back, parts, starts, stops⟩ := covers
  have bytes : source.utf8ByteSize = size front + (size text + size back) := by
    rw [← Text.size_toList, parts, Text.size_append, Text.size_append]
  refine ⟨by omega, by omega, isBoundary_iff.mpr ⟨front, text ++ back, parts, starts⟩,
    isBoundary_iff.mpr ⟨front ++ text, back, by simpa using parts, ?_⟩⟩
  rw [stops, Text.size_append]

theorem covers_whole (source : String) :
    Covers source ⟨0, source.utf8ByteSize⟩ source.toList :=
  ⟨[], [], by simp, rfl, by simp⟩

end Span

/-- From byte `at_` on the source goes on with the characters, up to its end. -/
def StandsAt (source : String) (at_ : Nat) (rest : List Char) : Prop :=
  ∃ front, source.toList = front ++ rest ∧ at_ = size front

namespace StandsAt

variable {source : String} {at_ : Nat} {rest : List Char}

theorem start (source : String) : StandsAt source 0 source.toList := ⟨[], rfl, rfl⟩

/-- Behind a text the source goes on with what follows the text. -/
theorem behind (text : List Char) (stands : StandsAt source at_ (text ++ rest)) :
    StandsAt source (at_ + size text) rest := by
  obtain ⟨front, parts, rfl⟩ := stands
  exact ⟨front ++ text, by rw [parts, List.append_assoc], (Text.size_append front text).symm⟩

theorem next {c : Char} (stands : StandsAt source at_ (c :: rest)) :
    StandsAt source (at_ + c.utf8Size) rest :=
  behind [c] stands

theorem covers (text : List Char) (stands : StandsAt source at_ (text ++ rest)) :
    Span.Covers source ⟨at_, at_ + size text⟩ text := by
  obtain ⟨front, parts, rfl⟩ := stands
  exact ⟨front, rest, parts, rfl, rfl⟩

theorem utf8ByteSize_eq (stands : StandsAt source at_ rest) :
    source.utf8ByteSize = at_ + size rest := by
  obtain ⟨front, parts, rfl⟩ := stands
  rw [← Text.size_toList, parts, Text.size_append]

theorem split? (stands : StandsAt source at_ rest) :
    ∃ front, Text.split? source.toList at_ = some (front, rest) := by
  obtain ⟨front, parts, rfl⟩ := stands
  exact ⟨front, by rw [parts, Text.split?_append]⟩

end StandsAt

end StepCode
