import Polyad.Error
import Polyad.Text.Stream

/-!
# Document formats

How values are written as texts and read from texts. A reader asks for the pieces of a text one
after the other, and may fail before it has asked for all of them.
-/

namespace Polyad

/-- A way to write values and to read them. A value has a text exactly if its whole numbers can be
written, and a text that breaks off has no value. -/
structure DocumentFormat where
  write : Value → Except Error String
  read : TextStream → Except Error Value
  exists_write_iff : ∀ v : Value, (∃ s, write v = .ok s) ↔ v.hasText = true
  unbroken : ∀ (t : TextStream) (v : Value), read t = .ok v → t.failure = none

/-- Reading undoes writing for a value: from its text it is read as it is. -/
def DocumentFormat.ReadsBack (F : DocumentFormat) (v : Value) : Prop :=
  ∀ s, F.write v = .ok s → F.read (.whole s) = .ok v

end Polyad
