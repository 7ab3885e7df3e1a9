import Mathlib
import BracketTemplate.Template.Scan

/-!
# What the operations on drafts leave alone

A draft has eight fields and every operation of scanning touches few of them.  The lemmas here say
what each operation does to the fields it might be suspected of changing: the number of open
brackets, the stack of directories, the files touched and the program.  With them no later proof
opens an operation.
-/

namespace BracketTemplate

namespace Draft

variable (d : Draft)

/-- The draft with no line end left to drop. -/
def calm : Draft := { d with skipNewline := false }

/-- The draft without the blanks its pending text ends in, if they are to go. -/
def trimIf (trim : Bool) : Draft := if trim then d.trimTextEnd else d

/-- A code region as a whole. -/
def addRegion (kind : Region) (left : Bool) (code : List Char) (right : Bool) : Draft :=
  Scan.closeRegion right (((d.trimIf left).openRegion kind).pushCode code)

@[simp] lemma opened_calm : d.calm.opened = d.opened := rfl

@[simp] lemma directories_calm : d.calm.directories = d.directories := rfl

@[simp] lemma calm_calm : d.calm.calm = d.calm := rfl

@[simp] lemma skipNewline_flushText : d.flushText.skipNewline = d.skipNewline := by
  unfold flushText
  split <;> rfl

@[simp] lemma flushText_calm : d.calm.flushText = d.flushText.calm := by
  by_cases h : d.pending = [] <;> simp [flushText, calm, h]

/-! ## Code -/

@[simp] lemma pushCode_nil : d.pushCode [] = d := by
  simp only [pushCode]
  split <;> simp

@[simp] lemma pushCode_pushCode (s t : List Char) :
    (d.pushCode s).pushCode t = d.pushCode (s ++ t) := by
  simp only [pushCode]
  split <;> simp_all

lemma setOpened_self {n : Nat} (h : d.opened = n) : { d with opened := n } = d := by
  subst h
  rfl

lemma pushCode_setOpened (n : Nat) (s : List Char) :
    ({ d with opened := n } : Draft).pushCode s = { d.pushCode s with opened := n } := by
  simp only [pushCode]
  split <;> rfl

/-! ## Open brackets -/

@[simp] lemma opened_pushCode (s : List Char) : (d.pushCode s).opened = d.opened := by
  simp only [pushCode]
  split <;> rfl

@[simp] lemma opened_trimIf (trim : Bool) : (d.trimIf trim).opened = d.opened := by
  cases trim <;> rfl

@[simp] lemma opened_flushText : d.flushText.opened = d.opened := by
  simp only [flushText]
  split <;> rfl

@[simp] lemma opened_openRegion (kind : Region) : (d.openRegion kind).opened = d.opened :=
  d.opened_flushText

@[simp] lemma opened_closeRegion : d.closeRegion.opened = d.opened := by
  unfold closeRegion
  split <;> rfl

@[simp] lemma opened_addRegion (kind : Region) (left : Bool) (code : List Char) (right : Bool) :
    (d.addRegion kind left code right).opened = d.opened := by
  simp [addRegion, Scan.closeRegion]

/-! ## Directories -/

@[simp] lemma directories_trimIf (trim : Bool) : (d.trimIf trim).directories = d.directories := by
  cases trim <;> rfl

@[simp] lemma directories_addRegion (kind : Region) (left : Bool) (code : List Char)
    (right : Bool) : (d.addRegion kind left code right).directories = d.directories := by
  have hclose : ∀ e : Draft, e.closeRegion.directories = e.directories := by
    intro e
    unfold closeRegion
    split <;> rfl
  have hpush : ∀ e : Draft, ∀ t, (e.pushCode t).directories = e.directories := by
    intro e t
    simp only [pushCode]
    split <;> rfl
  simp [addRegion, Scan.closeRegion, hclose, hpush, openRegion]

/-! ## Files touched -/

@[simp] lemma touched_trimIf (trim : Bool) : (d.trimIf trim).touched = d.touched := by
  cases trim <;> rfl

@[simp] lemma touched_flushText : d.flushText.touched = d.touched := by
  simp only [flushText]
  split <;> rfl

lemma touched_pushCode (s : List Char) : (d.pushCode s).touched = d.touched := by
  simp only [pushCode]
  split <;> rfl

lemma touched_closeRegion : d.closeRegion.touched = d.touched := by
  unfold closeRegion
  split <;> rfl

@[simp] lemma touched_addRegion (kind : Region) (left : Bool) (code : List Char) (right : Bool) :
    (d.addRegion kind left code right).touched = d.touched := by
  simp [addRegion, Scan.closeRegion, openRegion, touched_closeRegion, touched_pushCode]

end Draft

end BracketTemplate
