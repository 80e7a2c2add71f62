import Polyad.Proofs.Machine.Comparing

/-!
# Unpacking

What values give when they are gone through, and what becomes of them in a converter. It unpacks its
argument into names, of which it has as many as its tuples hold values, and makes the tuple of what
the names stand for then. Another number of values is a fault, and so is a value without items.
-/

namespace Polyad

namespace Generated.Native

variable {f : Family} {m : Member} {k : Native}

/-- How many values a native collection holds. -/
def size : Native → Nat
  | pair => 2
  | triple => 3

theorem converter_injective {j k : Native} (eq : j.converter = k.converter) : j = k := by
  cases j <;> cases k <;> first | rfl | exact absurd eq (by decide)

/-- A member has the native collection that holds as many values. -/
theorem of?_eq_some_iff (d : f.Derived) (mem : m ∈ f.members) :
    of? m = some k ↔ m.arity = k.size := by
  have pairs : m.has .pairInterop = (m.arity == 2) := by
    rw [Member.has, d.capable m mem]
    rfl
  have triples : m.has .tripleInterop = (m.arity == 3) := by
    rw [Member.has, d.capable m mem]
    rfl
  rw [of?, pairs, triples]
  by_cases two : m.arity = 2
  · cases k <;> simp [two, size]
  · cases k <;> simp [two, size]

end Generated.Native

namespace Machine

open Code Generated

/-! ## Going through values -/

/-- The items of a native value that can be gone through. -/
def Datum.items? : Datum → Option (List Datum)
  | .text s => some (s.toList.map fun c => .text (String.singleton c))
  | .list items _ | .tuple items _ | .iterator items => some items
  | .dict entries _ => some (entries.map Prod.fst)
  | _ => none

/-- What a value gives that is gone through, if it can be. -/
inductive Iterates (p : Program) (f : Family) (h : Heap) : Datum → Option (List Datum) → Prop
  | native {v : Datum} : v.IsNative → Iterates p f h v v.items?
  | tuple {id : Nat} {c : String} {vs : List Datum} : Stores f h id c vs →
      Iterates p f h (.object id) (some vs)
  /-- An instance of some class that has no items. -/
  | foreign {id : Nat} {i : Instance} : h.get? id = some i →
      p.find? i.className "__iter__" = none → Iterates p f h (.object id) none

namespace Context

variable {cx : Context} {h : Heap}

theorem iterate_native {v : Datum} (native : v.IsNative) :
    cx.iterate v h = (v.items?.elim (.error .wrongType) .ok, h) := by
  cases v
  case object id => exact absurd rfl (native id)
  all_goals rfl

/-- A mapping gives its keys. -/
example : cx.iterate (.dict [(.int 1, .text "a"), (.int 2, .null)] 1) h =
    (.ok [.int 1, .int 2], h) := rfl

theorem iterate_foreign {id : Nat} {i : Instance} (held : h.get? id = some i)
    (absent : cx.program.find? i.className "__iter__" = none) :
    cx.iterate (.object id) h = (.error .wrongType, h) := by
  have method : cx.method? id "__iter__" h = (.ok none, h) := by
    rw [method?, Exec.bind_ok (className_ok held), absent]
    rfl
  have special : cx.special? id "__iter__" h = (.ok none, h) := by
    rw [special?, Exec.bind_ok method]
    rfl
  have sent : cx.send id "__iter__" [] h = (.error .wrongType, h) := by
    rw [send, Exec.bind_ok special]
    rfl
  exact Exec.bind_error sent

end Context

variable {p : Program} {f : Family} {h : Heap} {v : Datum} {r : Option (List Datum)} {id : Nat}
variable {c : String} {vs : List Datum}

/-- Going through a tuple of any class gives its values. -/
theorem Program.Hosts.iterate_tuple (o : p.Hosts f) (s : Stores f h id c vs) (n : Nat) :
    ∃ g, (Context.withDepth p (n + 2)).iterate (.object id) h = (.ok vs, g) ∧
      g.instances = h.instances ∧ g.warnings = h.warnings := by
  cases s with
  | null mem arity held =>
    obtain ⟨next, contract, concrete, e⟩ := o.null _ mem arity
    exact ⟨h, e.iterate_object held (n + 1), rfl, rfl⟩
  | proper mem held =>
    obtain ⟨contract, concrete, e⟩ := o.proper _ mem
    exact ⟨h.labelled, e.iterate_object held n, rfl, rfl⟩
  | openEnded held => exact ⟨h, o.undisturbed.iterate_open held (n + 1), rfl, rfl⟩

theorem Iterates.iterate_eq (o : p.Hosts f) (gives : Iterates p f h v r) (n : Nat) :
    ∃ g, (Context.withDepth p (n + 2)).iterate v h = (r.elim (.error .wrongType) .ok, g) ∧
      g.instances = h.instances ∧ g.warnings = h.warnings := by
  cases gives with
  | native native => exact ⟨h, Context.iterate_native native, rfl, rfl⟩
  | tuple s => exact o.iterate_tuple s n
  | foreign held absent =>
    rw [← Context.program_withDepth p (n + 2)] at absent
    exact ⟨h, Context.iterate_foreign held absent, rfl, rfl⟩

/-! ## Unpacking -/

/-- Names that stand for values one by one are expressions that have them. -/
theorem Context.evaluates_names {cx : Context} {locals : Locals} {names : List String}
    (length : names.length = vs.length)
    (bound : ∀ e ∈ names.zip vs, locals.lookup e.1 = some e.2) :
    cx.Evaluates locals h (names.map .name) vs := by
  induction names generalizing vs with
  | nil =>
    cases vs with
    | nil => exact .nil
    | cons v vs => cases length
  | cons name names ih =>
    cases vs with
    | nil => cases length
    | cons v vs =>
      obtain ⟨own, rest⟩ := List.forall_mem_cons.1 bound
      refine .cons ?_ (ih (Nat.succ.inj length) rest)
      rw [eval_name (.local own)]
      rfl

/-- A member whose tuples are converted: the names of its class and of its positions are told apart
from each other and from the parameter of the converter. -/
structure Convertible (k : Native) (m : Member) : Prop where
  arity : m.arity = k.size
  ordinals : m.ordinals.length = k.size
  distinct : m.ordinals.Nodup
  free : m.className ∉ k.name :: m.ordinals

theorem convertible_built (k : Native) (bound : Int) :
    Convertible k (Family.builtMember bound k.size) := by
  -- The bound has no part in the names.
  have distinct : (Family.builtMember 0 k.size).ordinals.Nodup := by cases k <;> decide
  have free : (Family.builtMember 0 k.size).className ∉
      k.name :: (Family.builtMember 0 k.size).ordinals := by
    cases k <;> decide
  exact ⟨rfl, by cases k <;> rfl, distinct, free⟩

/-- The fault of unpacking another number of values than a native collection holds. -/
def Fault.miscount (k : Native) (count : Nat) : Fault :=
  if count < k.size then .tooFew k.size count else .tooMany k.size

/-- Makes an instance of the class of a member from the items of a value. -/
def Context.constructFrom (cx : Context) (m : Member) (k : Native) (v : Datum) : Exec Datum := do
  let items ← cx.iterate v
  if items.length < k.size then throw (.tooFew k.size items.length)
  if k.size < items.length then throw (.tooMany k.size)
  cx.construct m.className items

variable {k : Native} {m : Member} {cx : Context}

namespace Context

variable {g : Heap} {items : List Datum}

theorem constructFrom_of_count (step : cx.iterate v h = (.ok items, g))
    (count : items.length = k.size) :
    cx.constructFrom m k v h = cx.construct m.className items g := by
  rw [constructFrom, Exec.bind_ok step, if_neg (by omega), if_neg (by omega)]

theorem constructFrom_of_miscount (step : cx.iterate v h = (.ok items, g))
    (ne : items.length ≠ k.size) :
    cx.constructFrom m k v h = (.error (.miscount k items.length), g) := by
  rw [constructFrom, Exec.bind_ok step, Fault.miscount]
  by_cases few : items.length < k.size
  · rw [if_pos few, if_pos few]
    rfl
  · rw [if_neg few, if_neg few, if_pos (by omega)]
    rfl

end Context

namespace Convertible

variable (conv : Convertible k m)

include conv

/-- With its names for the values, a converter calls its class. -/
theorem eval_calls_className (named : cx.program.lookup m.className = some (.type m.className))
    (count : vs.length = k.size) (v : Datum) (h : Heap) :
    cx.eval (m.ordinals.zip vs ++ [(k.name, v)]) (.calls m.className (m.ordinals.map .name)) h =
      cx.construct m.className vs h := by
  have length : m.ordinals.length = vs.length := conv.ordinals.trans count.symm
  have names : (m.ordinals.zip vs).map Prod.fst = m.ordinals :=
    List.map_fst_zip (Nat.le_of_eq length)
  have hidden : m.className ∉ (m.ordinals.zip vs ++ [(k.name, v)]).map Prod.fst := by
    rw [List.map_append, names]
    simpa [and_comm] using conv.free
  have means : cx.program.Means (m.ordinals.zip vs ++ [(k.name, v)]) m.className
      (.type m.className) := .global (lookup_eq_none_of_not_mem hidden) named
  have nodup : ((m.ordinals.zip vs).map Prod.fst).Nodup := by
    rw [names]
    exact conv.distinct
  refine Context.eval_calls means (Context.evaluates_names length fun e mem => ?_)
  rw [List.lookup_append, lookup_of_nodup nodup mem]
  rfl

/-- The body of a converter makes an instance from the items of its argument. -/
theorem runBody_converter (named : cx.program.lookup m.className = some (.type m.className))
    (v : Datum) :
    cx.runBody [(k.name, v)] (converterFunction m k).body = cx.constructFrom m k v := by
  have given : cx.eval [(k.name, v)] (.name k.name) = pure v :=
    Context.eval_name (.local List.lookup_cons_self)
  have unpacks : cx.runBody [(k.name, v)] (converterFunction m k).body =
      cx.unpackInto [(k.name, v)] m.ordinals v >>= fun locals =>
        cx.eval locals (.calls m.className (m.ordinals.map .name)) := by
    show cx.runBody [(k.name, v)] [.unpack m.ordinals (.name k.name),
      .ret (.calls m.className (m.ordinals.map .name))] = _
    simp [Context.runBody, Context.runStmt, given]
  rw [unpacks, Context.unpackInto, Context.constructFrom, bind_assoc, conv.ordinals]
  congr 1
  funext items
  by_cases few : items.length < k.size
  · simp [few]
  · by_cases many : k.size < items.length
    · simp [few, many]
    · simp only [if_neg few, if_neg many, pure_bind]
      funext h
      exact conv.eval_calls_className named (by omega) v h

end Convertible

end Machine
end Polyad
