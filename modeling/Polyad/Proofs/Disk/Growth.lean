import Polyad.Disk.Tree

/-!
# Disks that grow

What making a directory and the missing ones above it does to a disk: it puts directories where
nothing was, at places that the path goes through, and changes nothing else, whether it succeeds or
fails on the way. A walk that leads somewhere leads there still after the disk has grown, because it
only asks for directories.
-/

namespace Polyad

/-! ## Steps in a row -/

namespace Steps

variable {ε σ α β : Type} {m : ExceptT ε (StateM σ) α} {f : α → ExceptT ε (StateM σ) β} {s s' : σ}

theorem bind_ok {a : α} (step : m s = (.ok a, s')) : (m >>= f) s = f a s' := by
  change (ExceptT.bindCont f (m s).1) (m s).2 = f a s'
  rw [step]
  rfl

theorem bind_error {e : ε} (step : m s = (.error e, s')) : (m >>= f) s = (.error e, s') := by
  change (ExceptT.bindCont f (m s).1) (m s).2 = _
  rw [step]
  rfl

theorem get_bind {g : σ → ExceptT ε (StateM σ) β} : (get >>= g) s = g s s :=
  bind_ok rfl

/-- Steps in a row lead, however they end, where each of them may lead. -/
theorem bind_leads {R : σ → σ → Prop} (trans : ∀ {a b c}, R a b → R b c → R a c)
    (first : R s (m s).2) (rest : ∀ a s', m s = (.ok a, s') → R s' (f a s').2) :
    R s ((m >>= f) s).2 := by
  rcases step : m s with ⟨r, s'⟩
  rw [step] at first
  cases r with
  | ok a =>
    rw [bind_ok step]
    exact trans first (rest a s' step)
  | error e =>
    rw [bind_error step]
    exact first

end Steps

/-! ## Walks -/

namespace Disk

/-- Where there is a directory on `d`, there is one on `d'`. -/
structure KeepsDirectories (d d' : Disk) : Prop where
  working : d'.working = d.working
  directory : ∀ l, d.find? l = some .directory → d'.find? l = some .directory

variable {d d' d'' : Disk} {dir p : Path} {l : Location}

theorem walk_cons_eq_ok_iff {here : Location} {part : String} {rest : List String} :
    d.walk here (part :: rest) = .ok l ↔ d.find? here = some .directory ∧
      (part = ".." ∧ d.walk here.dropLast rest = .ok l ∨
        part ≠ ".." ∧ part.utf8ByteSize ≤ maxName ∧ d.walk (here ++ [part]) rest = .ok l) := by
  rw [walk]
  split
  · next none => simp [none]
  · next file => simp [file]
  · next found =>
    by_cases up : part = ".."
    · simp [up, found]
    · by_cases long : maxName < part.utf8ByteSize
      · simp [up, long, Nat.not_le.2 long]
      · simp [up, long, found, Nat.not_lt.1 long]

theorem walk_append_eq_ok_iff {here : Location} {xs ys : List String} :
    d.walk here (xs ++ ys) = .ok l ↔ ∃ k, d.walk here xs = .ok k ∧ d.walk k ys = .ok l := by
  induction xs generalizing here with
  | nil => simp [walk]
  | cons x xs ih =>
    simp only [List.cons_append, walk_cons_eq_ok_iff, ih]
    constructor
    · rintro ⟨found, ⟨up, k, first, second⟩ | ⟨down, fits, k, first, second⟩⟩
      · exact ⟨k, ⟨found, .inl ⟨up, first⟩⟩, second⟩
      · exact ⟨k, ⟨found, .inr ⟨down, fits, first⟩⟩, second⟩
    · rintro ⟨k, ⟨found, ⟨up, first⟩ | ⟨down, fits, first⟩⟩, second⟩
      · exact ⟨found, .inl ⟨up, k, first, second⟩⟩
      · exact ⟨found, .inr ⟨down, fits, k, first, second⟩⟩

/-- A walk asks for directories only. -/
theorem KeepsDirectories.walk (keeps : d.KeepsDirectories d') {here : Location}
    {parts : List String} (h : d.walk here parts = .ok l) : d'.walk here parts = .ok l := by
  induction parts generalizing here with
  | nil => exact h
  | cons part rest ih =>
    obtain ⟨found, next⟩ := walk_cons_eq_ok_iff.1 h
    refine walk_cons_eq_ok_iff.2 ⟨keeps.directory here found, ?_⟩
    rcases next with ⟨up, next⟩ | ⟨down, fits, next⟩
    · exact .inl ⟨up, ih next⟩
    · exact .inr ⟨down, fits, ih next⟩

/-- Without parent components a walk leads straight down. -/
theorem eq_append_of_walk {here : Location} {parts : List String} (down : ".." ∉ parts)
    (h : d.walk here parts = .ok l) : l = here ++ parts := by
  induction parts generalizing here with
  | nil => simpa [Disk.walk] using h.symm
  | cons part rest ih =>
    obtain ⟨ne, down⟩ := not_or.1 (fun h => down (List.mem_cons.2 h))
    obtain ⟨-, ⟨up, -⟩ | ⟨-, -, next⟩⟩ := walk_cons_eq_ok_iff.1 h
    · exact absurd up.symm ne
    · rw [ih down next, List.append_assoc, List.singleton_append]

/-- Where the walk along a path begins. -/
def start (d : Disk) (p : Path) : Location := if p.root == "" then d.working else []

theorem walk_of_locate (h : d.locate p = .ok l) : d.walk (d.start p) p.parts = .ok l := by
  unfold locate at h
  split at h
  · cases h
  · split at h
    · cases h
    · exact h

theorem KeepsDirectories.locate (keeps : d.KeepsDirectories d') (h : d.locate p = .ok l) :
    d'.locate p = .ok l := by
  unfold Disk.locate at h ⊢
  split at h
  · cases h
  · next noNull =>
    split at h
    · cases h
    · next short => rw [if_neg noNull, if_neg short, keeps.working, keeps.walk h]

/-! ## Growth -/

/-- `l` is as before, or where nothing was a directory is made that is on the way to `dir`. -/
def KeptOrMade (dir : Path) (d d' : Disk) (l : Location) : Prop :=
  d'.find? l = d.find? l ∨ d.find? l = none ∧ d'.find? l = some .directory ∧
    ∃ q : Path, q.root = dir.root ∧ q.parts <+: dir.parts ∧ d'.locate q = .ok l

/-- Once opened further, the way is still the way. -/
theorem KeptOrMade.trans (h : KeptOrMade dir d d' l) (keeps : d'.KeepsDirectories d'')
    (h' : KeptOrMade dir d' d'' l) : KeptOrMade dir d d'' l := by
  rcases h' with same' | ⟨none', made', way'⟩
  · rcases h with same | ⟨none, made, q, root, parts, leads⟩
    · exact .inl (same'.trans same)
    · exact .inr ⟨none, same'.trans made, q, root, parts, keeps.locate leads⟩
  · rcases h with same | ⟨-, made, -⟩
    · exact .inr ⟨same ▸ none', made', way'⟩
    · rw [made] at none'
      cases none'

/-- A directory stays where it is. -/
theorem KeptOrMade.directory (h : KeptOrMade dir d d' l) (found : d.find? l = some .directory) :
    d'.find? l = some .directory := by
  rcases h with same | ⟨none, -, -⟩
  · rw [same, found]
  · rw [none] at found
    cases found

/-- `d'` is `d` with directories made where nothing was, each of them on the way to `dir`. -/
structure Opened (dir : Path) (d d' : Disk) : Prop where
  working : d'.working = d.working
  entry : ∀ l, KeptOrMade dir d d' l

theorem Opened.refl (dir : Path) (d : Disk) : Opened dir d d := ⟨rfl, fun _ => .inl rfl⟩

theorem Opened.keeps (h : Opened dir d d') : d.KeepsDirectories d' :=
  ⟨h.working, fun l => (h.entry l).directory⟩

theorem Opened.trans (h : Opened dir d d') (h' : Opened dir d' d'') : Opened dir d d'' :=
  ⟨h'.working.trans h.working, fun l => (h.entry l).trans h'.keeps (h'.entry l)⟩

/-- A way that ends earlier is part of the way. -/
theorem Opened.mono {q : Path} (h : Opened q d d') (root : q.root = dir.root)
    (parts : q.parts <+: dir.parts) : Opened dir d d' := by
  refine ⟨h.working, fun l => (h.entry l).imp_right ?_⟩
  rintro ⟨none, made, r, root', parts', leads⟩
  exact ⟨none, made, r, root'.trans root, parts'.trans parts, leads⟩

theorem ne_nil_of_find?_eq_none (h : d.find? l = none) : l ≠ [] := by
  rintro rfl
  cases h

theorem makeDirectory_eq (place : d.locate p = .ok l) : d.makeDirectory p =
    if (d.find? l).isSome then .error .occupied else .ok (d.put l .directory) := by
  rw [makeDirectory, place]
  dsimp only [bind, Except.bind]
  cases d.find? l <;> rfl

theorem opened_of_makeDirectory (h : d.makeDirectory p = .ok d') : Opened p d d' := by
  cases place : d.locate p with
  | error e =>
    rw [makeDirectory, place] at h
    cases h
  | ok l =>
    rw [makeDirectory_eq place] at h
    split at h
    · cases h
    · next free =>
      cases h
      have none : d.find? l = none := by simpa using free
      have found := find?_put d (ne_nil_of_find?_eq_none none) .directory
      have keeps : d.KeepsDirectories (d.put l .directory) := by
        refine ⟨rfl, fun k directory => ?_⟩
        rw [found]
        split
        · rfl
        · exact directory
      refine ⟨rfl, fun k => ?_⟩
      by_cases eq : k = l
      · subst eq
        have made := (found k).trans (if_pos rfl)
        exact .inr ⟨none, made, p, rfl, List.prefix_rfl, keeps.locate place⟩
      · exact .inl ((found k).trans (if_neg eq))

end Disk

namespace DiskM

open Disk

variable {dir : Path}

theorem locate_apply (p : Path) (d : Disk) : locate p d = (d.locate p, d) := by
  change (liftExcept (d.locate p) : DiskM Location) d = _
  cases d.locate p <;> rfl

/-- A directory that is there already will do. -/
theorem settleOr_of_directory {missing : DiskM Unit} {p : Path} {d : Disk} {l : Location}
    (place : d.locate p = .ok l) (found : d.find? l = some .directory) :
    settleOr missing p d = (.ok (), d) := by
  have there : d.makeDirectory p = .error .occupied := by
    rw [makeDirectory_eq place, found]
    rfl
  have is : d.isDirectory p = true := by
    have looked : d.lookAt p = .ok (d.find? l) := by rw [lookAt, place]; rfl
    rw [isDirectory, looked, found]
  rw [settleOr, Steps.get_bind, there]
  dsimp only
  rw [Steps.get_bind, is]
  rfl

theorem ensureDirectory_of_directory {p : Path} {d : Disk} {l : Location}
    (place : d.locate p = .ok l) (found : d.find? l = some .directory) :
    ensureDirectory p d = (.ok (), d) := by
  obtain ⟨root, parts⟩ := p
  obtain ⟨above, rfl⟩ : ∃ above : List String, parts = above.reverse :=
    ⟨_, (List.reverse_reverse _).symm⟩
  rw [ensureDirectory, List.reverse_reverse]
  cases above with
  | nil => exact settleOr_of_directory place found
  | cons part above => exact settleOr_of_directory place found

theorem opened_settleOr {missing : DiskM Unit} {p : Path} {d : Disk}
    (h : Opened p d (missing d).2) : Opened p d (settleOr missing p d).2 := by
  rw [settleOr, Steps.get_bind]
  cases made : d.makeDirectory p with
  | ok d' => exact opened_of_makeDirectory made
  | error e =>
    have accepted : Opened p d
        ((do if (← get).isDirectory p then return else throw e : DiskM Unit) d).2 := by
      rw [Steps.get_bind]
      split <;> exact .refl p d
    cases e with
    | noEntry => exact h
    | _ => exact accepted

theorem opened_settleDirectory (p : Path) (d : Disk) : Opened p d (settleDirectory p d).2 :=
  opened_settleOr (.refl p d)

theorem opened_makeDirectories (root : String) (above : List String) (d : Disk) :
    Opened ⟨root, above.reverse⟩ d (makeDirectories root above d).2 := by
  induction above generalizing d with
  | nil => exact opened_settleDirectory _ d
  | cons part above ih =>
    refine opened_settleOr (Steps.bind_leads .trans ?_ fun _ d' _ => opened_settleDirectory _ d')
    refine (ih d).mono rfl ?_
    rw [List.reverse_cons]
    exact List.prefix_append _ _

/-- Making a directory and those above it opens the way to it, however far that comes. -/
theorem opened_ensureDirectory (p : Path) (d : Disk) : Opened p d (ensureDirectory p d).2 := by
  have opened := opened_makeDirectories p.root p.parts.reverse d
  rwa [List.reverse_reverse] at opened

end DiskM
end Polyad
