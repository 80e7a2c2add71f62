import Polyad.Disk.Sink
import Polyad.Proofs.Disk.Growth

/-!
# Steps under faults

The steps of a write come in a fixed order, and the first one that meets a fault from outside or
fails by itself ends it. `Raised` says this of a failure, `proceeds_perform` shows it of a write.
-/

namespace Polyad.Sink

/-- The place of a step in the order of a write. -/
def Step.number : Step → Nat
  | encode => 0
  | makeParents => 1
  | readMode => 2
  | createTemporary => 3
  | writeData => 4
  | setMode => 5
  | replace => 6

/-- Nothing comes from outside at the first `n` steps. -/
def Calm (faults : Faults) (n : Nat) : Prop := ∀ s : Step, s.number < n → faults.at? s = none

/-- A failure is that of the first step that meets a fault or fails by itself. -/
structure Raised (faults : Faults) (f : Failure) : Prop where
  calm : Calm faults f.step.number
  outside : ∀ fault, faults.at? f.step = some fault → f.fault = fault

variable {faults : Faults} {α : Type}

theorem Step.number_injective {s t : Step} (h : s.number = t.number) : s = t := by
  cases s <;> cases t <;> first | rfl | cases h

theorem Calm.zero (faults : Faults) : Calm faults 0 := fun _ lt => absurd lt (Nat.not_lt_zero _)

theorem Calm.succ {s : Step} (calm : Calm faults s.number) (none : faults.at? s = none) :
    Calm faults (s.number + 1) := by
  intro t lt
  rcases Nat.lt_succ_iff_lt_or_eq.1 lt with before | same
  · exact calm t before
  · rw [Step.number_injective same, none]

theorem Calm.all (calm : Calm faults 7) (s : Step) : faults.at? s = none :=
  calm s (by cases s <;> decide)

theorem step_ok {s : Step} {begun : DiskM Unit} {act : DiskM α} {d d' : Disk} {x : α}
    (none : faults.at? s = none) (done : act d = (.ok x, d')) :
    step faults s begun act d = (.ok x, d') := by
  simp only [step, none, done]

/-- How a step on the disk can end. -/
theorem step_cases (faults : Faults) (s : Step) (begun : DiskM Unit) (act : DiskM α) (d : Disk) :
    (∃ x d', step faults s begun act d = (.ok x, d') ∧ faults.at? s = none ∧ act d = (.ok x, d')) ∨
    (∃ cause d', step faults s begun act d = (.error ⟨s, .system cause⟩, d') ∧
      faults.at? s = none ∧ act d = (.error cause, d')) ∨
    ∃ fault, step faults s begun act d = (.error ⟨s, fault⟩, (begun d).2) ∧
      faults.at? s = some fault := by
  unfold step
  cases came : faults.at? s with
  | some fault => exact .inr (.inr ⟨fault, rfl, rfl⟩)
  | none =>
    rcases done : act d with ⟨r, d'⟩
    cases r with
    | ok x => exact .inl ⟨x, d', rfl, rfl, rfl⟩
    | error cause => exact .inr (.inl ⟨cause, d', rfl, rfl, rfl⟩)

/-- A step that succeeds or else changes nothing does so under every fault. -/
theorem step_or (faults : Faults) (s : Step) {act : DiskM α} {d : Disk} {P : α → Disk → Prop}
    (h : (∃ x d', act d = (.ok x, d') ∧ P x d') ∨ ∃ cause, act d = (.error cause, d)) :
    (∃ x d', step faults s (pure ()) act d = (.ok x, d') ∧ P x d') ∨
    ∃ f, step faults s (pure ()) act d = (.error f, d) := by
  rcases step_cases faults s (pure ()) act d with
    ⟨x, d', done, -, act⟩ | ⟨cause, d', done, -, act⟩ | ⟨fault, done, -⟩
  · rcases h with ⟨x', d'', act', holds⟩ | ⟨cause, act'⟩
    · cases act'.symm.trans act
      exact .inl ⟨x, d', done, holds⟩
    · cases act'.symm.trans act
  · rcases h with ⟨x', d'', act', -⟩ | ⟨cause', act'⟩
    · cases act'.symm.trans act
    · cases act'.symm.trans act
      exact .inr ⟨_, done⟩
  · exact .inr ⟨_, done⟩

/-- From step `n` on, `act` gets to step `m` without a fault or ends with the first failure. -/
def Proceeds (faults : Faults) (n m : Nat) (act : StepM α) : Prop :=
  ∀ d, Calm faults n →
    match act d with
    | (.ok _, _) => Calm faults m
    | (.error f, _) => Raised faults f

theorem Proceeds.bind {β : Type} {n m k : Nat} {x : StepM α} {f : α → StepM β}
    (first : Proceeds faults n m x) (rest : ∀ a, Proceeds faults m k (f a)) :
    Proceeds faults n k (x >>= f) := by
  intro d calm
  have next := first d calm
  rcases done : x d with ⟨r, d'⟩
  rw [done] at next
  cases r with
  | ok a =>
    rw [Steps.bind_ok done]
    exact rest a d' next
  | error e =>
    rw [Steps.bind_error done]
    exact next

theorem Proceeds.pure {n : Nat} (a : α) : Proceeds faults n n (Pure.pure a : StepM α) :=
  fun _ calm => calm

theorem proceeds_step (s : Step) (begun : DiskM Unit) (act : DiskM α) :
    Proceeds faults s.number (s.number + 1) (step faults s begun act) := by
  intro d calm
  rcases step_cases faults s begun act d with
    ⟨x, d', done, none, -⟩ | ⟨cause, d', done, none, -⟩ | ⟨fault, done, came⟩
  · rw [done]
    exact calm.succ none
  · rw [done]
    refine ⟨calm, fun fault came => ?_⟩
    rw [none] at came
    cases came
  · rw [done]
    refine ⟨calm, fun other came' => ?_⟩
    rw [came] at came'
    exact Option.some.inj came'

theorem proceeds_removingOnFailure {n m : Nat} {act : StepM α} (l : Location)
    (h : Proceeds faults n m act) : Proceeds faults n m (removingOnFailure l act) := by
  intro d calm
  have next := h d calm
  unfold removingOnFailure
  rcases done : act d with ⟨r, d'⟩
  rw [done] at next
  cases r with
  | ok a => exact next
  | error e => exact next

theorem encode_cases (faults : Faults) (encoding text : String) (d : Disk) :
    (∃ bytes, encode faults encoding text d = (.ok bytes, d) ∧ faults.at? .encode = none ∧
      Text.encode encoding text = .ok bytes) ∨
    ∃ fault, encode faults encoding text d = (.error ⟨.encode, fault⟩, d) ∧
      ∀ other, faults.at? .encode = some other → fault = other := by
  unfold encode
  cases came : faults.at? .encode with
  | some fault => exact .inr ⟨fault, rfl, fun other same => Option.some.inj same⟩
  | none =>
    cases made : Text.encode encoding text with
    | ok bytes => exact .inl ⟨bytes, rfl, rfl, rfl⟩
    | error cause => exact .inr ⟨.encoding cause, rfl, fun other same => nomatch same⟩

/-- The steps of a write come in order, and the first that goes wrong ends it. -/
theorem proceeds_perform (faults : Faults) (encoding : String) (path : Path) (text : String) :
    Proceeds faults 0 7 (perform faults encoding path text) := by
  have encoded : Proceeds faults 0 1 (encode faults encoding text) := by
    intro d calm
    rcases encode_cases faults encoding text d with ⟨bytes, done, none, -⟩ | ⟨fault, done, same⟩
    · rw [done]
      exact (show Calm faults Step.encode.number from calm).succ none
    · rw [done]
      exact ⟨calm, same⟩
  refine encoded.bind fun bytes => .bind (m := 7) ?_ fun _ => .pure _
  refine (proceeds_step .makeParents _ _).bind fun _ => ?_
  refine (proceeds_step .readMode _ _).bind fun mode => ?_
  refine (proceeds_step .createTemporary _ _).bind fun l => ?_
  refine proceeds_removingOnFailure l ?_
  refine (proceeds_step .writeData _ _).bind fun _ => ?_
  exact (proceeds_step .setMode _ _).bind fun _ => proceeds_step .replace _ _

end Polyad.Sink
