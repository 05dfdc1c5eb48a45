/-!
# Fresh block ids

Ids of new blocks are drawn at random.  One that is in use is drawn again.
-/

namespace StepCode

/-- The characters of block ids. -/
def idCharacters : List Char :=
  ("!#%()*+,-./:;=?@[]^_`\x7b|\x7d~" ++
    "ABCDEFGHIJKLMNOPQRSTUVWXYZabcdefghijklmnopqrstuvwxyz0123456789").toList

def idLength : Nat := 20

def drawCharacters : Nat → StdGen → List Char × StdGen
  | 0, generator => ([], generator)
  | count + 1, generator =>
      let (place, generator) := randNat generator 0 (idCharacters.length - 1)
      let (rest, generator) := drawCharacters count generator
      ((idCharacters[place]?).getD '!' :: rest, generator)

/-- An id that is longer than all that are in use. -/
def longerId (used : List String) : String :=
  String.ofList (List.replicate ((used.map String.length).foldr max 0 + 1) '!')

/-- Draw ids until one is not in use, but not for ever. -/
def drawId (used : List String) : (tries : Nat) → StdGen → String
  | 0, _ => longerId used
  | tries + 1, generator =>
      let (characters, generator) := drawCharacters idLength generator
      let id := String.ofList characters
      if used.contains id then drawId used tries generator else id

/-- An id that is not in use.  The seed decides which. -/
def freshId (seed : Nat) (used : List String) : String :=
  drawId used (used.length + 1) (mkStdGen (seed + used.length))

/-- No id in use is as long as the one that is made when drawing is given up. -/
theorem longerId_not_mem (used : List String) : longerId used ∉ used := by
  have bound : ∀ (ids : List String) (id : String), id ∈ ids →
      id.length ≤ (ids.map String.length).foldr max 0 := by
    intro ids
    induction ids with
    | nil => intro id h; simp at h
    | cons head rest ih =>
        intro id h
        simp only [List.map_cons, List.foldr_cons]
        rcases List.mem_cons.mp h with h | h
        · subst h; exact Nat.le_max_left _ _
        · exact Nat.le_trans (ih id h) (Nat.le_max_right _ _)
  intro h
  have := bound used (longerId used) h
  simp only [longerId, String.length_ofList, List.length_replicate] at this
  omega

theorem drawId_not_mem (used : List String) (tries : Nat) (generator : StdGen) :
    drawId used tries generator ∉ used := by
  induction tries generalizing generator with
  | zero => exact longerId_not_mem used
  | succ tries ih =>
      simp only [drawId]
      split
      · exact ih _
      · simp_all

/-- A fresh id is not in use. -/
theorem freshId_not_mem (seed : Nat) (used : List String) : freshId seed used ∉ used :=
  drawId_not_mem _ _ _

end StepCode
