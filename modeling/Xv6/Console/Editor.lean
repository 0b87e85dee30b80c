import Mathlib.Data.List.Infix
import Mathlib.Data.List.Basic

namespace Xv6
namespace Console

open List

/-!
# The reference line editor

What typing on the console means, without a ring and without indices.  Keys
are collected in a line that can still be edited.  A newline, a `^D` or a full
buffer commits the line to the stream that readers take bytes from.

The editor only has to know how many bytes the readers have taken, because a
key is dropped when `INPUT_BUF` bytes are outstanding.
-/

def INPUT_BUF : Nat := 128

/-- `C(x)` of the source: the key `x` together with control. -/
def ctrl (letter : Char) : UInt8 := UInt8.ofNat (letter.toNat - 64)

def newline : UInt8 := 10

def carriageReturn : UInt8 := 13

def delete : UInt8 := 127

/-- A carriage return is typed as a newline. -/
def translate (c : UInt8) : UInt8 := if c = carriageReturn then newline else c

structure Editor where
  committed : List UInt8
  tail : List UInt8
  taken : Nat

/-- Something that happens to the editor: a key, or a reader that takes a byte. -/
inductive Event where
  | key (c : UInt8)
  | taken

namespace Editor

variable (editor : Editor)

def outstanding : Nat := editor.committed.length - editor.taken + editor.tail.length

/-- Append to the line, and commit it if that ends it or fills the buffer. -/
def append (c : UInt8) : Editor :=
  if c = newline ∨ c = ctrl 'D' ∨ editor.outstanding + 1 = INPUT_BUF then
    { editor with committed := editor.committed ++ (editor.tail ++ [c]), tail := [] }
  else { editor with tail := editor.tail ++ [c] }

def key (c : UInt8) : Editor :=
  if c = ctrl 'P' then editor
  else if c = ctrl 'U' then { editor with tail := [] }
  else if c = ctrl 'H' ∨ c = delete then { editor with tail := editor.tail.dropLast }
  else if c ≠ 0 ∧ editor.outstanding < INPUT_BUF then
    editor.append (translate c)
  else editor

def step : Event -> Editor
  | .key c => editor.key c
  | .taken => { editor with taken := editor.taken + 1 }

end Editor

/-- The editor after these events. -/
def reference (events : List Event) : Editor := events.foldl Editor.step ⟨[], [], 0⟩

theorem reference_append (events : List Event) (event : Event) :
    reference (events ++ [event]) = (reference events).step event := by
  rw [reference, foldl_append]
  rfl

/-- The keys that erase. -/
def Erases (c : UInt8) : Prop := c = ctrl 'U' ∨ c = ctrl 'H' ∨ c = delete

theorem Editor.committed_append (editor : Editor) (c : UInt8) :
    editor.committed <+: (editor.append c).committed := by
  unfold Editor.append
  split
  · exact prefix_append _ _
  · exact prefix_refl _

/-- What has been committed stays committed. -/
theorem Editor.committed_step (editor : Editor) (event : Event) :
    editor.committed <+: (editor.step event).committed := by
  cases event with
  | taken => exact prefix_refl _
  | key c =>
    rw [Editor.step, Editor.key]
    split_ifs
    · exact prefix_refl _
    · exact prefix_refl _
    · exact prefix_refl _
    · exact editor.committed_append _
    · exact prefix_refl _

theorem Editor.newline_append {editor : Editor} (none : newline ∉ editor.tail) (c : UInt8) :
    newline ∉ (editor.append c).tail := by
  unfold Editor.append
  split
  · exact not_mem_nil
  · next ends =>
      intro member
      rcases mem_append.mp member with earlier | last
      · exact none earlier
      · exact ends (Or.inl (mem_singleton.mp last).symm)

/-- The line never holds a newline, so erasing all of it and erasing back to the
last newline are the same. -/
theorem Editor.newline_step {editor : Editor} (none : newline ∉ editor.tail) (event : Event) :
    newline ∉ (editor.step event).tail := by
  cases event with
  | taken => exact none
  | key c =>
    rw [Editor.step, Editor.key]
    split_ifs
    · exact none
    · exact not_mem_nil
    · exact fun member => none (dropLast_subset _ member)
    · exact Editor.newline_append none _
    · exact none

theorem newline_not_mem_tail (events : List Event) : newline ∉ (reference events).tail := by
  induction events using List.reverseRecOn with
  | nil => exact not_mem_nil
  | append_singleton events event ih =>
    rw [reference_append]
    exact Editor.newline_step ih event

end Console
end Xv6
