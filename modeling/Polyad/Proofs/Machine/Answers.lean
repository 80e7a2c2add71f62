import Polyad.Proofs.Machine.Identity
import Polyad.Proofs.Machine.Outcomes
import Polyad.Proofs.Machine.Tuples

/-!
# What tuples answer

The answers that the three kinds of tuple give when they are compared with something or hashed. All
of them are equal to themselves and compare another tuple of their class by the values of both, and
none of them is equal to anything else; but the null tuple says so, where the others do not know.
-/

namespace Polyad.Machine

open Code Generated

variable {p : Program} {m next : Member} {f : Family} {runtime : String}
variable {contract concrete : ClassDef} {h : Heap} {id : Nat} {vs ws : List Datum} {y : Datum}

/-- The answer of a comparison with something that a tuple is not equal to. -/
def Denies (answer : Datum) : Prop := answer = .notImplemented ∨ answer = .bool false

/-! ## Asking instances -/

namespace Context

variable {cx : Context} {i : Instance} {r : Routine}

theorem ask_object (held : h.get? id = some i)
    (found : cx.program.find? i.className "__eq__" = some (.method r)) (own : IsOwn r) (y : Datum) :
    cx.ask (.object id) y h = cx.run r [.object id, y] h := by
  rw [ask, Exec.bind_ok (special?_ok held found own)]

/-- A written method is asked as it is called. -/
theorem ask_written (held : h.get? id = some i) {fn : Function}
    (found : cx.program.find? i.className "__eq__" = some (.method (.written fn))) (y : Datum) :
    cx.ask (.object id) y h = cx.callMethod (.object id) "__eq__" [y] h := by
  rw [ask_object held found trivial, callMethod_object held found]

theorem digest_object (held : h.get? id = some i)
    (found : cx.program.find? i.className "__hash__" = some (.method r)) (own : IsOwn r) :
    cx.digest (.object id) h =
      (cx.run r [.object id] >>= fun v => match v with
        | .digest d => pure d
        | v => match v.whole? with
          | some n => pure (.number (Number.rationalCode n))
          | none => throw .wrongType) h := by
  rw [digest, instanceDigest]
  exact Exec.bind_ok (special?_ok held found own)

/-- A hash that a method gives is the digest. -/
theorem digest_hash (held : h.get? id = some i)
    (found : cx.program.find? i.className "__hash__" = some (.method r)) (own : IsOwn r) {g : Heap}
    {d : Exec Digest}
    (ran : cx.run r [.object id] h = (do return Datum.digest (← d)) g) :
    cx.digest (.object id) h = d g := by
  rw [digest_object held found own, Exec.bind_congr ran]
  simp

/-- A value that does not know an answer leaves it to the other side. -/
theorem negotiate_of_denies {x y : Datum} {a b : Datum} (ne : x ≠ y)
    (asked : cx.ask x y h = (.ok a, h)) (first : Denies a) (askedBack : cx.ask y x h = (.ok b, h))
    (second : Denies b) : cx.negotiate x y h = (.ok false, h) := by
  have apart : x.identical y = false := by
    rw [← Bool.not_eq_true, Datum.identical_iff]
    exact ne
  rw [negotiate, Exec.bind_ok asked]
  rcases first with rfl | rfl
  · dsimp only
    rw [Exec.bind_ok askedBack]
    rcases second with rfl | rfl
    · dsimp only
      rw [apart]
      rfl
    · rfl
  · rfl

/-- A truth value for an answer is the outcome of the comparison. -/
theorem negotiate_of_bool {x y : Datum} {g : Heap} {b : Exec Bool}
    (asked : cx.ask x y h = (do return Datum.bool (← b)) g) : cx.negotiate x y h = b g := by
  have truth (b : Bool) : cx.truth (.bool b) = pure b := rfl
  rw [negotiate, Exec.bind_congr asked]
  simp [truth]

end Context

/-! ## Instances of emitted classes -/

theorem Program.Emitted.ask_eq (e : p.Emitted m f runtime contract concrete)
    (held : Holds h id m vs) (y : Datum) (n : Nat) :
    (Context.withDepth p (n + 1)).ask (.object id) y h =
      (Context.withDepth p (n + 1)).callMethod (.object id) "__eq__" [y] h := by
  have method := e.find?_concrete (equalMethod m) (by simp [valueIdentity])
  obtain ⟨i, found, class_eq, -⟩ := held
  rw [← class_eq, ← Context.program_withDepth p (n + 1)] at method
  exact Context.ask_written found method y

theorem Program.Emitted.digest_eq (e : p.Emitted m f runtime contract concrete)
    (held : Holds h id m vs) (n : Nat) :
    (Context.withDepth p (n + 1)).digest (.object id) h =
      (Context.withDepth p n).digest (.tuple vs 0) h.labelled := by
  have method := e.find?_concrete (hashMethod m) (by simp [valueIdentity])
  have called := e.callMethod_hash held n
  obtain ⟨i, found, class_eq, -⟩ := held
  rw [← class_eq, ← Context.program_withDepth p (n + 1)] at method
  rw [← Context.digest_tuple _ vs h.labels]
  exact Context.digest_hash found method trivial
    ((Context.callMethod_object found method []).symm.trans called)

/-! ## The null tuple -/

namespace Program.EmittedNull

variable (e : p.EmittedNull m next f runtime contract concrete)

include e

theorem find?_equal : p.find? m.className "__eq__" =
    some (.method (.written (equality [.ret (isInstance m.className)]))) := by
  have mem : equality [.ret (isInstance m.className)] ∈ nullMethods m next := by simp [nullMethods]
  exact e.find?_of_mem_concrete mem

/-- A null tuple is equal to what is of its class. -/
theorem ask_null (held : Holds h id m [])
    (means : p.Means [("self", .object id), ("other", y)] m.className (.type m.className)) {n : Nat}
    {b : Bool} (kind : (Context.withDepth p n).isInstance y m.className h = (.ok b, h)) :
    (Context.withDepth p (n + 1)).ask (.object id) y h = (.ok (.bool b), h) := by
  have called : (Context.withDepth p (n + 1)).callMethod (.object id) "__eq__" [y] h =
      (.ok (.bool b), h) := by
    refine (Emitted.callMethod_ret held (equality [.ret (isInstance m.className)]) [y]
      e.find?_equal rfl rfl rfl n).trans ?_
    exact e.undisturbed.eval_isInstance means kind
  obtain ⟨i, found, class_eq, -⟩ := held
  rw [Context.ask_written found (by rw [Context.program_withDepth, class_eq, e.find?_equal])]
  exact called

/-- All null tuples have the same hash. -/
theorem digest_null (held : Holds h id m []) (n : Nat) :
    (Context.withDepth p (n + 1)).digest (.object id) h = (.ok (.number 0), h) := by
  have mem : getter "__hash__" (.name "int") [.ret (.int 0)] ∈ nullMethods m next := by
    simp [nullMethods]
  have method : p.find? m.className "__hash__" =
      some (.method (.written (getter "__hash__" (.name "int") [.ret (.int 0)]))) :=
    e.find?_of_mem_concrete mem
  have called : (Context.withDepth p (n + 1)).callMethod (.object id) "__hash__" [] h =
      (.ok (.int 0), h) := by
    refine (Emitted.callMethod_ret held (getter "__hash__" (.name "int") [.ret (.int 0)]) [] method
      rfl rfl rfl n).trans ?_
    rw [Context.eval]
    rfl
  obtain ⟨i, found, class_eq, -⟩ := held
  rw [← class_eq, ← Context.program_withDepth p (n + 1)] at method
  rw [Context.callMethod_object found method] at called
  rw [Context.digest_object found method trivial, Exec.bind_ok called]
  rfl

end Program.EmittedNull

/-! ## The open-ended tuple -/

namespace Program.Undisturbed

variable (u : p.Undisturbed)

include u

theorem ask_open (held : HoldsOpen h id vs) (y : Datum) (n : Nat) :
    (Context.withDepth p (n + 1)).ask (.object id) y h =
      Support.equalOpen (Context.withDepth p n) (.object id) y h := by
  have method : p.find? Support.openClass "__eq__" =
      some (.method (.support Support.openClass "__eq__")) := u.find?_open (by decide) rfl
  obtain ⟨i, label, found, class_eq, -⟩ := held
  rw [Context.ask_object found (by rw [Context.program_withDepth, class_eq, method]) (isOwn_open _)]
  rfl

theorem valueTuple_open (held : HoldsOpen h id vs) (n : Nat) : ∃ label,
    Support.valueTuple (Context.withDepth p n) (.object id) h = (.ok (.tuple vs label), h) := by
  obtain ⟨i, label, found, class_eq, value⟩ := held
  have slot : p.find? Support.openClass Support.valuesSlot = some (.slot Support.valuesSlot) :=
    u.find?_open (by decide) rfl
  refine ⟨label, Context.getAttribute_slot found ?_ value⟩
  rw [Context.program_withDepth, class_eq, slot]

theorem ask_open_self (held : HoldsOpen h id vs) (n : Nat) :
    (Context.withDepth p (n + 1)).ask (.object id) (.object id) h = (.ok (.bool true), h) := by
  rw [u.ask_open held, Support.equalOpen, if_pos (Datum.identical_iff.2 rfl)]
  rfl

theorem ask_open_foreign (held : HoldsOpen h id vs) (ne : .object id ≠ y) {n : Nat}
    (kind : (Context.withDepth p n).isInstance y Support.openClass h = (.ok false, h)) :
    (Context.withDepth p (n + 1)).ask (.object id) y h = (.ok .notImplemented, h) := by
  rw [u.ask_open held, Support.equalOpen, if_neg (by rwa [Datum.identical_iff]), Exec.bind_ok kind]
  rfl

/-- Another open-ended tuple is compared by the values of both. -/
theorem ask_open_kin (held : HoldsOpen h id vs) {other : Nat} (theirs : HoldsOpen h other ws)
    (ne : id ≠ other) {n : Nat}
    (kind : (Context.withDepth p n).isInstance (.object other) Support.openClass h =
      (.ok true, h)) :
    (Context.withDepth p (n + 1)).ask (.object id) (.object other) h =
      (do return Datum.bool (← (Context.withDepth p n).equal (.tuple vs 0) (.tuple ws 0))) h := by
  have apart : ¬Datum.identical (.object id) (.object other) = true := by
    rw [Datum.identical_iff]
    exact fun eq => ne (by injection eq)
  obtain ⟨i, mine⟩ := u.valueTuple_open held n
  obtain ⟨j, other⟩ := u.valueTuple_open theirs n
  rw [u.ask_open held, Support.equalOpen, if_neg apart, Exec.bind_ok kind]
  rw [if_neg (by decide), Exec.bind_ok mine, Exec.bind_ok other, Context.equal_tuple]

theorem digest_open (held : HoldsOpen h id vs) (n : Nat) :
    (Context.withDepth p (n + 1)).digest (.object id) h =
      (Context.withDepth p n).digest (.tuple vs 0) h := by
  have method : p.find? Support.openClass "__hash__" =
      some (.method (.support Support.openClass "__hash__")) := u.find?_open (by decide) rfl
  obtain ⟨label, read⟩ := u.valueTuple_open held n
  obtain ⟨i, -, found, class_eq, -⟩ := held
  refine Context.digest_hash found (by rw [Context.program_withDepth, class_eq, method])
    (isOwn_open _) ?_
  show (Support.valueTuple (Context.withDepth p n) (.object id) >>= fun v =>
    (Context.withDepth p n).digest v >>= fun d => pure (Datum.digest d)) h = _
  rw [Exec.bind_ok read, Context.digest_tuple]

end Program.Undisturbed

end Polyad.Machine
