import Polyad.DocumentFormat
import Polyad.Yaml.Data
import Polyad.Yaml.Printer

/-!
# YAML as a document format

The reader and the writer together.
-/

namespace Polyad.Yaml

def format : DocumentFormat where
  write := write
  read := readStream
  exists_write_iff v := by
    unfold write
    split <;> simp_all
  unbroken _ _ := failure_of_readStream

theorem format_write (v : Value) : format.write v = write v := rfl

theorem format_read_whole (s : String) : format.read (.whole s) = read s := rfl

/-- A mistake in front of the place where a text breaks off is found before the rest is asked for;
without one, the rest is asked for. -/
example :
    (format.read ⟨["a: *b\n#".toList, "c".toList], some "bad byte"⟩ matches
      .error .malformedYaml) ∧
    (format.read ⟨["a: b\n#".toList, "c".toList], some "bad byte"⟩ matches
      .error (.undecodable "bad byte")) := by
  decide +kernel

end Polyad.Yaml
