/-!
# Splitting at a character

`splitAt sep` cuts a text at every occurrence of a character; lines and path segments are both read
this way. There is always one piece more than there are separators, and writing the pieces with the
separator between them (`joinWith`) gives the text back.
-/

namespace BracketTemplate

/-- The pieces of a text between the occurrences of a separator. -/
def splitAt (sep : Char) : List Char → List (List Char)
  | [] => [[]]
  | c :: rest =>
    if c = sep then [] :: splitAt sep rest
    else match splitAt sep rest with
      | [] => [[c]]
      | piece :: more => (c :: piece) :: more

/-- The pieces with a separator between them. -/
def joinWith (sep : Char) : List (List Char) → List Char
  | [] => []
  | [piece] => piece
  | piece :: rest => piece ++ sep :: joinWith sep rest

/-- A text splits into at least one piece. -/
theorem splitAt_ne_nil (sep : Char) (s : List Char) : splitAt sep s ≠ [] := by
  induction s with
  | nil => simp [splitAt]
  | cons c rest ih =>
    unfold splitAt
    split
    · simp
    · split <;> simp_all

/-- Joining the pieces gives the text back. -/
theorem joinWith_splitAt (sep : Char) (s : List Char) : joinWith sep (splitAt sep s) = s := by
  induction s with
  | nil => rfl
  | cons c rest ih =>
    unfold splitAt
    have hne := splitAt_ne_nil sep rest
    split
    · next h =>
      cases hs : splitAt sep rest with
      | nil => exact absurd hs hne
      | cons piece more => rw [hs] at ih; simp [joinWith, ih, h]
    · split
      · simp_all
      · next piece more heq =>
        rw [heq] at ih
        cases more with
        | nil => simpa [joinWith] using ih
        | cons q more => simp only [joinWith, List.cons_append] at ih ⊢; rw [ih]

/-- No piece holds the separator. -/
theorem not_mem_of_mem_splitAt {sep : Char} {s piece : List Char} (h : piece ∈ splitAt sep s) :
    sep ∉ piece := by
  induction s generalizing piece with
  | nil => simp [splitAt] at h; simp [h]
  | cons c rest ih =>
    unfold splitAt at h
    split at h
    · rcases List.mem_cons.1 h with rfl | h
      · simp
      · exact ih h
    · next hc =>
      split at h
      · rcases List.mem_singleton.1 h with rfl
        simpa using fun e => hc e.symm
      · next q more heq =>
        rcases List.mem_cons.1 h with rfl | h
        · have hq : sep ∉ q := ih (by simp [heq])
          simpa [hq] using fun e => hc e.symm
        · exact ih (by simp [heq, h])

end BracketTemplate
