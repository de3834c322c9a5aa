import Mathlib.Algebra.Notation.Pi.Defs
import Mathlib.Data.List.Basic

/-!
# Pictures laid over each other

A display that is never cleared lays every picture it receives over what it
shows, where blank places let the old picture through.  If the pictures were
taken of one thing that only fills blank places, the display shows the latest of
them, in whatever order and however often they arrive.

Nothing in this file depends on what the pictures are of.
-/

namespace Overlays

variable {ι κ : Type*} [Zero κ]

/-- What is filled in the first picture is the same in the second. -/
def GrowsInto (picture later : ι → κ) : Prop :=
  ∀ place, picture place ≠ 0 → later place = picture place

namespace GrowsInto

variable {first second third : ι → κ}

theorem refl (picture : ι → κ) : GrowsInto picture picture := fun _ _ => rfl

theorem blank (picture : ι → κ) : GrowsInto 0 picture := fun _ filled => absurd rfl filled

theorem trans (earlier : GrowsInto first second) (later : GrowsInto second third) :
    GrowsInto first third := by
  intro place filled
  have same := earlier place filled
  rw [later place (same ▸ filled), same]

theorem antisymm (earlier : GrowsInto first second) (later : GrowsInto second first) :
    first = second := by
  funext place
  by_cases filled : first place = 0
  · by_contra different
    exact different (later place fun blank => different (filled.trans blank.symm))
  · exact (earlier place filled).symm

end GrowsInto

variable [DecidableEq κ]

/-- Lay a picture over what is shown. -/
def overlay (shown picture : ι → κ) : ι → κ := fun place =>
  if picture place = 0 then shown place else picture place

variable {shown picture later : ι → κ} {pictures : List (ι → κ)}

theorem growsInto_overlay (shown picture : ι → κ) : GrowsInto picture (overlay shown picture) :=
  fun place filled => by rw [overlay, if_neg filled]

theorem overlay_growsInto (old : GrowsInto shown later) (new : GrowsInto picture later) :
    GrowsInto (overlay shown picture) later := by
  intro place filled
  unfold overlay at filled ⊢
  split
  · rename_i blank
    rw [if_pos blank] at filled
    exact old place filled
  · exact new place ‹_›

/-- What is shown stays, if it is of the same thing as the picture. -/
theorem shown_growsInto_overlay (old : GrowsInto shown later) (new : GrowsInto picture later) :
    GrowsInto shown (overlay shown picture) := by
  intro place filled
  unfold overlay
  split
  · rfl
  · rw [← new place ‹_›, old place filled]

theorem foldl_overlay_growsInto (old : GrowsInto shown later)
    (all : ∀ picture ∈ pictures, GrowsInto picture later) :
    GrowsInto (pictures.foldl overlay shown) later := by
  induction pictures generalizing shown with
  | nil => exact old
  | cons picture pictures ih =>
      exact ih (overlay_growsInto old (all picture List.mem_cons_self))
        fun other member => all other (List.mem_cons_of_mem _ member)

theorem shown_growsInto_foldl (old : GrowsInto shown later)
    (all : ∀ picture ∈ pictures, GrowsInto picture later) :
    GrowsInto shown (pictures.foldl overlay shown) := by
  induction pictures generalizing shown with
  | nil => exact .refl shown
  | cons picture pictures ih =>
      have new := all picture List.mem_cons_self
      exact (shown_growsInto_overlay old new).trans (ih (overlay_growsInto old new)
        fun other member => all other (List.mem_cons_of_mem _ member))

theorem mem_growsInto_foldl (old : GrowsInto shown later)
    (all : ∀ picture ∈ pictures, GrowsInto picture later) (member : picture ∈ pictures) :
    GrowsInto picture (pictures.foldl overlay shown) := by
  induction pictures generalizing shown with
  | nil => cases member
  | cons first pictures ih =>
      have new := all first List.mem_cons_self
      have others : ∀ other ∈ pictures, GrowsInto other later :=
        fun other member => all other (List.mem_cons_of_mem _ member)
      have shownNext := overlay_growsInto old new
      rcases List.mem_cons.mp member with rfl | member
      · exact (growsInto_overlay shown picture).trans (shown_growsInto_foldl shownNext others)
      · exact ih shownNext others member

/-- The display shows the latest picture it has received. -/
theorem foldl_overlay_eq (old : GrowsInto shown picture) (member : picture ∈ pictures)
    (latest : ∀ other ∈ pictures, GrowsInto other picture) :
    pictures.foldl overlay shown = picture :=
  (foldl_overlay_growsInto old latest).antisymm (mem_growsInto_foldl old latest member)

end Overlays
