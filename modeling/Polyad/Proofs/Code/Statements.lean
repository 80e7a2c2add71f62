import Polyad.Code.Document

/-!
# Lines read as statements

Lines are read from the top, block by block. A line that starts like an import is an import of one
line; if it opens a parenthesis that it does not close, the import runs on through the first line
with a closing one, or to the end if there is none. Any other line is no import. All lines can be
read in one way only, and the search for the end of the imports ends where the last import of that
reading does.
-/

namespace Polyad.Code

/-- A line that starts like an import. -/
def BeginsImport (line : String) : Prop :=
  "import ".toList <+: line.toList ∨ "from ".toList <+: line.toList

/-- A line that opens a parenthesis and closes none. -/
def RunsOn (line : String) : Prop := '(' ∈ line.toList ∧ ')' ∉ line.toList

inductive Block where
  | other (line : String)
  | import_ (lines : List String)

namespace Block

def lines : Block → List String
  | other line => [line]
  | import_ lines => lines

def IsImport : Block → Prop
  | other _ => False
  | import_ _ => True

instance (b : Block) : Decidable b.IsImport := by
  cases b <;> unfold IsImport <;> infer_instance

/-- The number of lines of some blocks. -/
def size (bs : List Block) : Nat := (bs.flatMap lines).length

theorem size_append (as bs : List Block) : size (as ++ bs) = size as + size bs := by
  simp [size]

end Block

/-- How lines are read as blocks. -/
inductive Reads : List String → List Block → Prop
  | nil : Reads [] []
  | other {line : String} {rest : List String} {bs : List Block} :
      ¬BeginsImport line → Reads rest bs → Reads (line :: rest) (.other line :: bs)
  | single {line : String} {rest : List String} {bs : List Block} :
      BeginsImport line → ¬RunsOn line → Reads rest bs →
        Reads (line :: rest) (.import_ [line] :: bs)
  | closed {line last : String} {middle rest : List String} {bs : List Block} :
      BeginsImport line → RunsOn line → (∀ l ∈ middle, ')' ∉ l.toList) → ')' ∈ last.toList →
        Reads rest bs →
        Reads (line :: (middle ++ last :: rest)) (.import_ (line :: (middle ++ [last])) :: bs)
  | unclosed {line : String} {rest : List String} :
      BeginsImport line → RunsOn line → (∀ l ∈ rest, ')' ∉ l.toList) →
        Reads (line :: rest) [.import_ (line :: rest)]

variable {line : String} {ls rest : List String} {bs bs' : List Block} {b : Block}

theorem startsImport_iff : startsImport line = true ↔ BeginsImport line := by
  simp [startsImport, BeginsImport]

theorem opensImport_iff : opensImport line = true ↔ RunsOn line := by
  simp [opensImport, RunsOn]

/-! ## One reading -/

/-- The first line with a closing parenthesis, if any has one. -/
theorem exists_closing (ls : List String) :
    (∀ l ∈ ls, ')' ∉ l.toList) ∨ ∃ middle last rest, ls = middle ++ last :: rest ∧
      (∀ l ∈ middle, ')' ∉ l.toList) ∧ ')' ∈ last.toList := by
  cases found : ls.find? (·.toList.contains ')') with
  | none => exact .inl (by simpa using found)
  | some last =>
    obtain ⟨closes, middle, rest, eq, before⟩ := List.find?_eq_some_iff_append.1 found
    exact .inr ⟨middle, last, rest, eq, by simpa using before, by simpa using closes⟩

theorem closing_unique {middle middle' rest rest' : List String} {last last' : String}
    (eq : middle ++ last :: rest = middle' ++ last' :: rest')
    (before : ∀ l ∈ middle, ')' ∉ l.toList) (closes : ')' ∈ last.toList)
    (before' : ∀ l ∈ middle', ')' ∉ l.toList) (closes' : ')' ∈ last'.toList) :
    middle = middle' ∧ last = last' ∧ rest = rest' := by
  induction middle generalizing middle' with
  | nil =>
    cases middle' with
    | nil => exact ⟨rfl, List.cons.inj eq⟩
    | cons l ls =>
      obtain ⟨rfl, -⟩ := List.cons.inj eq
      exact absurd closes (before' _ List.mem_cons_self)
  | cons k ks ih =>
    cases middle' with
    | nil =>
      obtain ⟨rfl, -⟩ := List.cons.inj eq
      exact absurd closes' (before _ List.mem_cons_self)
    | cons l ls =>
      obtain ⟨rfl, tails⟩ := List.cons.inj eq
      obtain ⟨rfl, same⟩ := ih tails (fun m mem => before m (List.mem_cons_of_mem _ mem))
        fun m mem => before' m (List.mem_cons_of_mem _ mem)
      exact ⟨rfl, same⟩

namespace Reads

theorem exists_reads (ls : List String) : ∃ bs, Reads ls bs := by
  match ls with
  | [] => exact ⟨[], .nil⟩
  | line :: rest =>
    by_cases begins : BeginsImport line
    · by_cases runs : RunsOn line
      · rcases exists_closing rest with none | ⟨middle, last, after, eq, before, closes⟩
        · exact ⟨_, .unclosed begins runs none⟩
        · have shorter : after.length < rest.length := by simp [eq]; omega
          obtain ⟨bs, reads⟩ := exists_reads after
          subst eq
          exact ⟨_, .closed begins runs before closes reads⟩
      · obtain ⟨bs, reads⟩ := exists_reads rest
        exact ⟨_, .single begins runs reads⟩
    · obtain ⟨bs, reads⟩ := exists_reads rest
      exact ⟨_, .other begins reads⟩
termination_by ls.length

theorem unique (first : Reads ls bs) (second : Reads ls bs') : bs = bs' := by
  induction first generalizing bs' with
  | nil =>
    cases second
    rfl
  | other quiet _ ih =>
    cases second with
    | other _ reads => rw [ih reads]
    | single begins => exact absurd begins quiet
    | closed begins => exact absurd begins quiet
    | unclosed begins => exact absurd begins quiet
  | single begins ends _ ih =>
    cases second with
    | other quiet => exact absurd begins quiet
    | single _ _ reads => rw [ih reads]
    | closed _ runs => exact absurd runs ends
    | unclosed _ runs => exact absurd runs ends
  | @closed line last middle rest bs begins runs before closes _ ih =>
    generalize eq : line :: (middle ++ last :: rest) = ls at second
    cases second with
    | nil => cases eq
    | other quiet =>
      obtain ⟨rfl, -⟩ := List.cons.inj eq
      exact absurd begins quiet
    | single _ ends =>
      obtain ⟨rfl, -⟩ := List.cons.inj eq
      exact absurd runs ends
    | closed _ _ before' closes' reads =>
      obtain ⟨rfl, tails⟩ := List.cons.inj eq
      obtain ⟨rfl, rfl, rfl⟩ := closing_unique tails before closes before' closes'
      rw [ih reads]
    | unclosed _ _ none =>
      obtain ⟨rfl, rfl⟩ := List.cons.inj eq
      exact absurd closes (none last (by simp))
  | @unclosed line rest begins runs none =>
    generalize eq : line :: rest = ls at second
    cases second with
    | nil => cases eq
    | other quiet =>
      obtain ⟨rfl, -⟩ := List.cons.inj eq
      exact absurd begins quiet
    | single _ ends =>
      obtain ⟨rfl, -⟩ := List.cons.inj eq
      exact absurd runs ends
    | @closed _ last _ _ _ _ _ _ closes _ =>
      obtain ⟨-, rfl⟩ := List.cons.inj eq
      exact absurd closes (none last (by simp))
    | unclosed =>
      cases eq
      rfl

/-- The blocks are made of the lines. -/
theorem flatMap_lines (reads : Reads ls bs) : bs.flatMap Block.lines = ls := by
  induction reads with
  | nil => rfl
  | other _ _ ih => simp [Block.lines, ih]
  | single _ _ _ ih => simp [Block.lines, ih]
  | closed _ _ _ _ _ ih => simp [Block.lines, ih]
  | unclosed => simp [Block.lines]

theorem not_beginsImport (reads : Reads ls bs) (mem : .other line ∈ bs) : ¬BeginsImport line := by
  induction reads with
  | nil => cases mem
  | other quiet _ ih =>
    rcases List.mem_cons.1 mem with eq | mem
    · cases eq
      exact quiet
    · exact ih mem
  | single _ _ _ ih => exact ih ((List.mem_cons.1 mem).resolve_left nofun)
  | closed _ _ _ _ _ ih => exact ih ((List.mem_cons.1 mem).resolve_left nofun)
  | unclosed => cases List.mem_singleton.1 mem

theorem lines_ne_nil (reads : Reads ls bs) (mem : b ∈ bs) : b.lines ≠ [] := by
  induction reads with
  | nil => cases mem
  | other _ _ ih =>
    rcases List.mem_cons.1 mem with rfl | mem
    · simp [Block.lines]
    · exact ih mem
  | single _ _ _ ih =>
    rcases List.mem_cons.1 mem with rfl | mem
    · simp [Block.lines]
    · exact ih mem
  | closed _ _ _ _ _ ih =>
    rcases List.mem_cons.1 mem with rfl | mem
    · simp [Block.lines]
    · exact ih mem
  | unclosed =>
    rw [List.mem_singleton.1 mem]
    simp [Block.lines]

end Reads

/-! ## The search -/

/-- Inside an import the search looks for the closing parenthesis only. -/
theorem anchorFrom_closed {middle : List String} {last : String}
    (before : ∀ l ∈ middle, ')' ∉ l.toList) (closes : ')' ∈ last.toList) (rest : List String)
    (n : Nat) (found : Option Nat) :
    anchorFrom n true found (middle ++ last :: rest) =
      anchorFrom (n + middle.length + 1) false (some (n + middle.length + 1)) rest := by
  induction middle generalizing n with
  | nil => simp [anchorFrom, closes]
  | cons l ls ih =>
    obtain ⟨open_, before⟩ := List.forall_mem_cons.1 before
    rw [List.cons_append, anchorFrom, if_pos rfl, if_neg (by simpa using open_), ih before,
      List.length_cons, Nat.add_right_comm n 1, Nat.add_assoc n]

theorem anchorFrom_unclosed (none : ∀ l ∈ rest, ')' ∉ l.toList) (n : Nat) (found : Option Nat) :
    anchorFrom n true found rest = some (n + rest.length) := by
  induction rest generalizing n with
  | nil => rfl
  | cons l ls ih =>
    obtain ⟨open_, none⟩ := List.forall_mem_cons.1 none
    rw [anchorFrom, if_pos rfl, if_neg (by simpa using open_), ih none, List.length_cons]
    congr 1
    omega

/-- The end of the last import of some blocks, of which the first starts at line `n`. -/
def lastEnd (n : Nat) (found : Option Nat) : List Block → Option Nat
  | [] => found
  | .other _ :: bs => lastEnd (n + 1) found bs
  | .import_ ls :: bs => lastEnd (n + ls.length) (some (n + ls.length)) bs

/-- The search goes from block to block. -/
theorem Reads.anchorFrom_eq (reads : Reads ls bs) (n : Nat) (found : Option Nat) :
    anchorFrom n false found ls = lastEnd n found bs := by
  induction reads generalizing n found with
  | nil => rfl
  | other quiet _ ih =>
    rw [anchorFrom, if_neg (by decide), if_neg (mt startsImport_iff.1 quiet), ih]
    rfl
  | single begins ends _ ih =>
    rw [anchorFrom, if_neg (by decide), if_pos (startsImport_iff.2 begins),
      if_neg (mt opensImport_iff.1 ends), ih]
    rfl
  | @closed line last middle rest bs begins runs before closes _ ih =>
    have size : n + (line :: (middle ++ [last])).length = n + 1 + middle.length + 1 := by
      simp
      omega
    rw [anchorFrom, if_neg (by decide), if_pos (startsImport_iff.2 begins),
      if_pos (opensImport_iff.2 runs), anchorFrom_closed before closes, ih, lastEnd, size]
  | unclosed begins runs none =>
    rw [anchorFrom, if_neg (by decide), if_pos (startsImport_iff.2 begins),
      if_pos (opensImport_iff.2 runs), anchorFrom_unclosed none, lastEnd, lastEnd, List.length_cons,
      Nat.add_right_comm n 1, Nat.add_assoc n]

theorem lastEnd_none (none : ∀ b ∈ bs, ¬b.IsImport) (n : Nat) (found : Option Nat) :
    lastEnd n found bs = found := by
  induction bs generalizing n with
  | nil => rfl
  | cons b bs ih =>
    obtain ⟨first, others⟩ := List.forall_mem_cons.1 none
    cases b with
    | other line => exact ih others (n + 1)
    | import_ ls => exact absurd trivial first

theorem lastEnd_append {front back : List Block} (isImport : b.IsImport)
    (none : ∀ c ∈ back, ¬c.IsImport) (n : Nat) (found : Option Nat) :
    lastEnd n found (front ++ b :: back) = some (n + Block.size (front ++ [b])) := by
  induction front generalizing n found with
  | nil =>
    cases b with
    | other line => cases isImport
    | import_ ls =>
      rw [List.nil_append, lastEnd, lastEnd_none none]
      simp [Block.size, Block.lines]
  | cons c cs ih =>
    cases c with
    | other line =>
      rw [List.cons_append, lastEnd, ih]
      simp [Block.size, Block.lines]
      omega
    | import_ ls =>
      rw [List.cons_append, lastEnd, ih]
      simp [Block.size, Block.lines]
      omega

/-- Blocks among which there is an import have a last one. -/
theorem exists_last (mem : b ∈ bs) (isImport : b.IsImport) :
    ∃ front c back, bs = front ++ c :: back ∧ c.IsImport ∧ ∀ d ∈ back, ¬d.IsImport := by
  cases found : bs.reverse.find? (fun c => decide c.IsImport) with
  | none => exact absurd isImport (by simpa using List.find?_eq_none.1 found b (by simpa using mem))
  | some c =>
    obtain ⟨own, after, before, eq, none⟩ := List.find?_eq_some_iff_append.1 found
    refine ⟨before.reverse, c, after.reverse, ?_, by simpa using own, by simpa using none⟩
    rw [← List.reverse_reverse bs, eq]
    simp

/-- The end of the last import of a reading: it is a number of lines from 1 on, no line after it
starts like an import, and it is not inside an import. -/
structure EndsImports (ls : List String) (bs : List Block) (n : Nat) : Prop where
  last : ∃ front b back, bs = front ++ b :: back ∧ b.IsImport ∧ (∀ c ∈ back, ¬c.IsImport) ∧
    n = Block.size (front ++ [b])
  pos : 1 ≤ n
  le : n ≤ ls.length
  quiet : ∀ l ∈ ls.drop n, ¬BeginsImport l
  outside : ∀ front b back, bs = front ++ b :: back → b.IsImport →
    ¬(Block.size front < n ∧ n < Block.size (front ++ [b]))

/-- No import of some blocks ends after the last one. -/
theorem size_le_of_last {front back front' back' : List Block} {b b' : Block}
    (eq : front ++ b :: back = front' ++ b' :: back') (none : ∀ c ∈ back, ¬c.IsImport)
    (isImport : b'.IsImport) : Block.size (front' ++ [b']) ≤ Block.size (front ++ [b]) := by
  have eq : (front ++ [b]) ++ back = (front' ++ [b']) ++ back' := by simpa using eq
  rcases List.append_eq_append_iff.1 eq with ⟨more, longer, rest⟩ | ⟨more, shorter, -⟩
  · -- What comes after the last import would hold the other one.
    rcases List.eq_nil_or_concat more with rfl | ⟨more, c, rfl⟩
    · simp [longer]
    · rw [List.concat_eq_append, ← List.append_assoc] at longer
      obtain ⟨-, same⟩ := List.append_inj' longer rfl
      cases same
      exact absurd isImport (none b' (by simp [rest]))
  · rw [shorter, Block.size_append (front' ++ [b'])]
    omega

theorem Reads.endsImports {front back : List Block} (reads : Reads ls bs)
    (eq : bs = front ++ b :: back) (isImport : b.IsImport) (none : ∀ c ∈ back, ¬c.IsImport) :
    EndsImports ls bs (Block.size (front ++ [b])) := by
  have cut : ls = (front ++ [b]).flatMap Block.lines ++ back.flatMap Block.lines := by
    rw [← reads.flatMap_lines, eq, ← List.flatMap_append]
    simp
  refine ⟨⟨front, b, back, eq, isImport, none, rfl⟩, ?_, ?_, ?_, ?_⟩
  · have filled := List.length_pos_iff.2 (reads.lines_ne_nil (b := b) (by simp [eq]))
    simp [Block.size]
    omega
  · rw [cut, List.length_append]
    exact Nat.le_add_right _ _
  · intro l mem
    rw [cut, Block.size, List.drop_left] at mem
    obtain ⟨c, there, own⟩ := List.mem_flatMap.1 mem
    cases c with
    | other line =>
      rw [List.mem_singleton.1 own]
      exact reads.not_beginsImport (by simp [eq, there])
    | import_ ls => exact absurd trivial (none _ there)
  · rintro front' b' back' eq' isImport' ⟨-, inside⟩
    exact absurd (size_le_of_last (eq.symm.trans eq') none isImport') (by omega)

/-- There is one way to read any lines as blocks. The search for the end of the imports fails if and
only if none of the blocks is an import, and otherwise it gives the end of the last one. -/
theorem importAnchor_exact (ls : List String) (filename : String) :
    ∃ bs, Reads ls bs ∧ (∀ bs', Reads ls bs' → bs' = bs) ∧
      (importAnchor ls filename = .error (.noImportBlock filename) ↔ ∀ b ∈ bs, ¬b.IsImport) ∧
      ((∃ b ∈ bs, b.IsImport) → ∃ n, importAnchor ls filename = .ok n ∧ EndsImports ls bs n) := by
  obtain ⟨bs, reads⟩ := Reads.exists_reads ls
  have found : (∃ b ∈ bs, b.IsImport) →
      ∃ n, importAnchor ls filename = .ok n ∧ EndsImports ls bs n := by
    rintro ⟨b, mem, isImport⟩
    obtain ⟨front, c, back, eq, own, none⟩ := exists_last mem isImport
    refine ⟨_, ?_, reads.endsImports eq own none⟩
    rw [importAnchor, importAnchor?, reads.anchorFrom_eq, eq, lastEnd_append own none,
      Nat.zero_add]
  refine ⟨bs, reads, fun bs' reads' => reads'.unique reads, ⟨fun failed b mem isImport => ?_, ?_⟩,
    found⟩
  · obtain ⟨n, gives, -⟩ := found ⟨b, mem, isImport⟩
    rw [gives] at failed
    cases failed
  · intro none
    rw [importAnchor, importAnchor?, reads.anchorFrom_eq, lastEnd_none none]

end Polyad.Code
