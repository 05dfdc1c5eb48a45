import StepCode.Proofs.Rebuild.Planted

/-!
# Where rebuilt blocks are placed

The top blocks that get new places fill the slots of the grid one after the other: the one in front of
which `number` slots have been taken gets the slot with that number.
-/

namespace StepCode

namespace Layout

/-- The slot with a number, if the slots are counted column by column and from the top down. -/
def slotAt (grid : Grid) (number : Nat) : Slot :=
  ⟨number / height grid, number % height grid⟩

/-- The cursor behind the first slots. -/
def Cursor.behind (grid : Grid) : Nat → Cursor
  | 0 => .start
  | number + 1 => (slotAt grid number).after

/-- The slot below, or the first one of the next column if the column is full. -/
theorem slotAt_succ (grid : Grid) (number : Nat) :
    slotAt grid (number + 1) = (slotAt grid number).after.slot grid := by
  have positive : 0 < height grid := by
    rw [height]
    omega
  have inColumn := Nat.mod_lt number positive
  have whole : number + 1 =
      height grid * (number / height grid) + (number % height grid + 1) := by
    rw [← Nat.add_assoc, Nat.div_add_mod]
  unfold Cursor.slot
  split
  next full =>
    have last : number % height grid + 1 = height grid :=
      Nat.le_antisymm inColumn (Nat.le_of_lt_succ full)
    rw [slotAt, whole, last, ← Nat.mul_add_one, Nat.mul_div_cancel_left _ positive,
      Nat.mul_mod_right]
    rfl
  next room =>
    have inside : number % height grid + 1 < height grid := Nat.le_of_not_lt room
    rw [slotAt, whole, Nat.mul_add_div positive, Nat.div_eq_of_lt inside, Nat.add_zero,
      Nat.mul_add_mod, Nat.mod_eq_of_lt inside]
    rfl

/-- Behind the first slots comes the slot with their number. -/
theorem Cursor.slot_behind (grid : Grid) (number : Nat) :
    (behind grid number).slot grid = slotAt grid number := by
  cases number with
  | zero => simp [behind, start, slot, slotAt, height]
  | succ number => exact (slotAt_succ grid number).symm

theorem slotAt_injective (grid : Grid) : Function.Injective (slotAt grid) := by
  intro number other same
  obtain ⟨column, row⟩ := Slot.mk.inj same
  rw [← Nat.div_add_mod number (height grid), column, row, Nat.div_add_mod]

/-- A block at the slot with a number; a block without position stays without. -/
def placeAt (grid : Grid) (number : Nat) (block : Block) : Block :=
  match block.x with
  | none => block
  | some _ =>
      { block with
        x := some (Float.ofNat (number / height grid) * grid.xOffset)
        y := some (Float.ofNat (number % height grid) * grid.yOffset) }

/-- Placing behind the first slots takes the next one, unless the block has no position. -/
theorem place_behind (grid : Grid) (number : Nat) (block : Block) :
    place grid (.behind grid number) block =
      (placeAt grid number block,
        .behind grid (if block.x.isSome then number + 1 else number)) := by
  unfold place placeAt
  cases block.x with
  | none => rfl
  | some x =>
      simp only [Cursor.slot_behind]
      rfl

end Layout

variable (settings : Settings) (source : Target)

namespace CompiledUnit

/-- Whether a slot is taken for a unit: it has step code, and its top block has a position. -/
def takesSlot (compiled : CompiledUnit) : Bool :=
  match compiled.plan settings source with
  | .ok (top, _) => top.x.isSome
  | .error _ => false

/-- What is copied for a unit when `number` slots have been taken: the blocks of a unit without step
code as they are; or else the top block in its place, what hangs off its slots as it is, and the
marker. -/
def copies (number : Nat) (compiled : CompiledUnit) : List (String × BlockEntry) :=
  match compiled.plan settings source with
  | .error _ => scriptEntries source.blocks compiled.top
  | .ok (top, text) =>
      (compiled.top, .block (Layout.placeAt settings.grid number top)) ::
        (inputEntries source.blocks top ++ markerEntries compiled.top top text)

theorem writes_behind (number : Nat) (compiled : CompiledUnit) :
    compiled.writes settings source (.behind settings.grid number) =
      compiled.copies settings source number := by
  unfold writes copies
  cases compiled.plan settings source with
  | error reason => rfl
  | ok planned =>
      obtain ⟨top, text⟩ := planned
      simp only [Layout.place_behind]

theorem cursorAfter_behind (number : Nat) (compiled : CompiledUnit) :
    compiled.cursorAfter settings source (.behind settings.grid number) =
      .behind settings.grid
        (if compiled.takesSlot settings source then number + 1 else number) := by
  unfold cursorAfter takesSlot
  cases compiled.plan settings source with
  | error reason => rfl
  | ok planned =>
      obtain ⟨top, text⟩ := planned
      simp only [Layout.place_behind]

/-- The slots that are taken for the units in front of the one at `index`. -/
def slotsTaken (units : List CompiledUnit) (index : Nat) : Nat :=
  (units.take index).countP (takesSlot settings source)

/-- What is copied for units one after the other. -/
def allCopies (units : List CompiledUnit) : List (String × BlockEntry) :=
  units.zipIdx.flatMap fun unit =>
    unit.1.copies settings source (slotsTaken settings source units unit.2)

theorem writesAll_behind (taken units : List CompiledUnit) :
    writesAll settings source (.behind settings.grid (taken.countP (takesSlot settings source))) units =
      (units.zipIdx taken.length).flatMap fun unit =>
        unit.1.copies settings source (slotsTaken settings source (taken ++ units) unit.2) := by
  induction units generalizing taken with
  | nil => rfl
  | cons compiled units ih =>
      have taken' : (taken ++ [compiled]).countP (takesSlot settings source) =
          if compiled.takesSlot settings source then taken.countP (takesSlot settings source) + 1
          else taken.countP (takesSlot settings source) := by
        rw [List.countP_append, List.countP_singleton]
        split <;> simp
      have here : slotsTaken settings source (taken ++ compiled :: units) taken.length =
          taken.countP (takesSlot settings source) := by
        simp [slotsTaken]
      have rest := ih (taken ++ [compiled])
      rw [taken', ← cursorAfter_behind, List.append_assoc, List.singleton_append,
        List.length_append, List.length_singleton] at rest
      rw [writesAll, writes_behind, rest, List.zipIdx_cons, List.flatMap_cons, here]

theorem slotsTaken_lt {units : List CompiledUnit} {first second : Nat} {compiled : CompiledUnit}
    (isFirst : units[first]? = some compiled) (takes : compiled.takesSlot settings source = true)
    (before : first < second) :
    slotsTaken settings source units first < slotsTaken settings source units second := by
  have upTo : slotsTaken settings source units (first + 1) =
      slotsTaken settings source units first + 1 := by
    simp [slotsTaken, List.take_add_one, isFirst, takes]
  have further : slotsTaken settings source units (first + 1) ≤
      slotsTaken settings source units second :=
    (List.take_sublist_take_left (by omega)).countP_le
  omega

end CompiledUnit

/-- A rebuild copies the units of a target to the slots in their order. -/
theorem Target.rebuildWrites_eq (results : TargetResults) :
    source.rebuildWrites settings results =
      CompiledUnit.allCopies settings source results.units :=
  CompiledUnit.writesAll_behind settings source [] results.units

variable {settings} {source}

/-- No slot is taken twice. -/
theorem CompiledUnit.slotAt_slotsTaken_ne {units : List CompiledUnit} {first second : Nat}
    {one other : CompiledUnit} (isFirst : units[first]? = some one)
    (isSecond : units[second]? = some other) (takesFirst : one.takesSlot settings source = true)
    (takesSecond : other.takesSlot settings source = true) (apart : first ≠ second) :
    Layout.slotAt settings.grid (slotsTaken settings source units first) ≠
      Layout.slotAt settings.grid (slotsTaken settings source units second) := by
  intro same
  have number := Layout.slotAt_injective settings.grid same
  rcases Nat.lt_or_gt_of_ne apart with before | behind
  · have less := slotsTaken_lt settings source isFirst takesFirst before
    omega
  · have less := slotsTaken_lt settings source isSecond takesSecond behind
    omega

/-- In a rebuilt program each target is what its units copy, in front of the placeholders: the unit in
front of which a number of units have taken slots puts its top block into the slot with that number,
counted column by column from the first one on.  A unit without step code, or with a top block without
position, copies it as it is and takes none; and no two units get the same slot. -/
theorem tops_fill_the_grid (newId : List String → String) (settings : Settings)
    (helpers : Table String) (source : Project) (results : List TargetResults)
    (same : results.length = source.targets.length) :
    ∃ rebuilt report, source.rebuild newId settings helpers results = .ok (rebuilt, report) ∧
      ∀ (index : Nat) (target : Target) (own : TargetResults),
        source.targets[index]? = some target → results[index]? = some own →
        (∃ after extras, rebuilt.targets[index]? = some after ∧
          after.blocks = Table.empty.insertAll
            (CompiledUnit.allCopies settings target own.units ++ extras) ∧
          (∀ extra ∈ extras, ∃ opcode, extra.2 = .block (.placeholder opcode)) ∧
          (index ≠ 0 → extras = [])) ∧
        ∀ (first second : Nat) (one other : CompiledUnit), own.units[first]? = some one →
          own.units[second]? = some other → one.takesSlot settings target = true →
          other.takesSlot settings target = true → first ≠ second →
          Layout.slotAt settings.grid (CompiledUnit.slotsTaken settings target own.units first) ≠
            Layout.slotAt settings.grid
              (CompiledUnit.slotsTaken settings target own.units second) := by
  refine ⟨_, _, if_pos same, fun index target own isTarget isOwn => ⟨?_, ?_⟩⟩
  · have isPlain : (((source.targets.zip results).map fun pair =>
        pair.1.rebuild settings pair.2).map (·.1))[index]? =
        some (target.rebuild settings own).1 := by
      have pair : (source.targets.zip results)[index]? = some (target, own) :=
        List.getElem?_zip_eq_some.mpr ⟨isTarget, isOwn⟩
      simp only [List.getElem?_map, pair, Option.map_some]
    obtain ⟨after, extras, isAfter, placeholders, eq, onlyFirst⟩ :=
      exists_getElem?_keepExtensions newId source isPlain
    refine ⟨after, extras, isAfter, ?_, placeholders.isPlaceholder, onlyFirst⟩
    rw [eq, Target.rebuild_blocks, Target.rebuildWrites_eq, Table.insertAll_append]
  · intro first second one other isFirst isSecond takesFirst takesSecond apart
    exact CompiledUnit.slotAt_slotsTaken_ne isFirst isSecond takesFirst takesSecond apart

/-- A hat or definition at a position. -/
def standing (opcode : String) (x y : Option Float) : BlockEntry :=
  .block { Block.bare opcode with topLevel := true, x := x, y := y }

/-- A target with four scripts, one of them without position, and a procedure. -/
def scatteredTarget : Target where
  isStage := true
  name := "Stage"
  vars := .empty
  blocks := .ofList [("first", standing "event_whenflagclicked" (some 7.0) (some 7.0)),
    ("refused", standing "event_whenflagclicked" (some 8.0) (some 8.0)),
    ("floating", standing "event_whenflagclicked" none none),
    ("second", standing "event_whenflagclicked" (some 9.0) none),
    ("third", standing "procedures_definition" (some 5.0) (some 5.0))]
  comments := .empty
  extra := .empty

def scatteredProgram : Project := ⟨[scatteredTarget, scatteredTarget], [], .empty, .empty⟩

/-- Results for it: one of the scripts is refused. -/
def scatteredResults : TargetResults where
  hats := .ofList [("first", ⟨"first", .ok (.source "")⟩), ("refused", ⟨"refused", .error "no"⟩),
    ("floating", ⟨"floating", .ok (.source "")⟩), ("second", ⟨"second", .ok (.source "")⟩)]
  procedures := [⟨"third", .ok (.source "")⟩]

/-- Two rows, and no size reduction. -/
def twoRows : Settings := { Settings.default with minify := false, grid := ⟨100.0, 10.0, 2⟩ }

/-- In the second target, as in the first, the procedure is the third to take a slot: it gets the first
one of the second column. -/
theorem scatteredProgram_fills_the_grid :
    [scatteredResults, scatteredResults].length = scatteredProgram.targets.length ∧
      ∃ rebuilt report after, scatteredProgram.rebuild longerId twoRows .empty
          [scatteredResults, scatteredResults] = .ok (rebuilt, report) ∧
        rebuilt.targets[1]? = some after ∧
        after.blocks = Table.empty.insertAll
          [("first", standing "event_whenflagclicked" (some 0.0) (some 0.0)),
            ("refused", standing "event_whenflagclicked" (some 8.0) (some 8.0)),
            ("floating", standing "event_whenflagclicked" none none),
            ("second", standing "event_whenflagclicked" (some 0.0) (some 10.0)),
            ("third", standing "procedures_definition" (some 100.0) (some 0.0))] := by
  obtain ⟨rebuilt, report, done, each⟩ := tops_fill_the_grid longerId twoRows .empty
    scatteredProgram [scatteredResults, scatteredResults] rfl
  obtain ⟨⟨after, extras, isAfter, blocks, -, onlyFirst⟩, -⟩ :=
    each 1 scatteredTarget scatteredResults rfl rfl
  refine ⟨rfl, rebuilt, report, after, done, isAfter, ?_⟩
  rw [blocks, onlyFirst (by decide), List.append_nil]
  rfl

end StepCode
