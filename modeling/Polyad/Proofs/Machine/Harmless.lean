import Polyad.Proofs.Machine.Tuples

/-!
# Harmless code

Slots are written by the initialisers of classes and by the method of every class that sets
attributes, and whoever gets hold of one of these can write the slots of a tuple. Code is *harmless*
if it does not ask for them by name, and a value is if no other code stands in it. Everything that
harmless code works on is harmless as well, as long as the program and the heap are.
-/

namespace Polyad.Code

/-! ## Attributes in a text -/

namespace Expr

mutual

/-- The attributes that an expression asks for. -/
def attributes : Expr → List String
  | name _ => []
  | int _ => []
  | literal _ => []
  | attr e field => field :: e.attributes
  | call f args => f.attributes ++ attributesAll args
  | spread e => e.attributes
  | keyword _ e => e.attributes
  | tuple items => attributesAll items
  | list items => attributesAll items
  | dict entries => attributesEntries entries
  | index e i => e.attributes ++ i.attributes
  | identical a b => a.attributes ++ b.attributes
  | equal a b => a.attributes ++ b.attributes
  | more a b => a.attributes ++ b.attributes
  | minus a b => a.attributes ++ b.attributes
  | negate e => e.attributes
  | template parts => attributesAll parts
  | shown e => e.attributes

def attributesAll : List Expr → List String
  | [] => []
  | e :: es => e.attributes ++ attributesAll es

def attributesEntries : List (Expr × Expr) → List String
  | [] => []
  | (k, v) :: rest => k.attributes ++ v.attributes ++ attributesEntries rest

end

theorem attributesAll_eq (es : List Expr) : attributesAll es = es.flatMap attributes := by
  induction es with
  | nil => rfl
  | cons e es ih => rw [attributesAll, ih, List.flatMap_cons]

theorem attributes_calls (name : String) (args : List Expr) :
    (calls name args).attributes = attributesAll args := by
  rw [calls, attributes, attributes, List.nil_append]

end Expr

namespace Stmt

/-- The attributes that a statement asks for. -/
def attributes : Stmt → List String
  | expr e => e.attributes
  | ret e => e.attributes
  | fail e => e.attributes
  | unpack _ e => e.attributes
  | when c s => c.attributes ++ s.attributes
  | callByLine f args => f.attributes ++ Expr.attributesAll args
  | raw _ => []

end Stmt

/-- The attributes that the body of a function asks for. -/
def Function.attributes (f : Function) : List String := f.body.flatMap Stmt.attributes

/-- A function of one expression asks for what stands there. -/
theorem Function.attributes_ret {f : Function} {e : Expr} (body : f.body = [.ret e]) :
    f.attributes = e.attributes := by
  rw [attributes, body, List.flatMap_cons, List.flatMap_nil, List.append_nil, Stmt.attributes]

end Polyad.Code

namespace Polyad.Machine

open Code Generated

/-! ## Code and values -/

/-- The methods of supporting classes that write slots, and the one that finds code under any
name. -/
def setters : List Routine := [
  .support Support.openClass "__init__", .support "object" "__setattr__",
  .support "object" "__getattribute__"]

/-- The names under which these and the initialisers of members are found. -/
def setterNames : List String := ["__init__", "__setattr__", "__getattribute__"]

/-- Nothing that could write a slot is among some attributes. -/
def NoSetters (attributes : List String) : Prop := ∀ name ∈ attributes, name ∉ setterNames

@[simp] theorem noSetters_nil : NoSetters [] := by simp [NoSetters]

@[simp] theorem noSetters_append {as bs : List String} :
    NoSetters (as ++ bs) ↔ NoSetters as ∧ NoSetters bs := by
  simp only [NoSetters, List.mem_append, or_imp, forall_and]

@[simp] theorem noSetters_cons {name : String} {as : List String} :
    NoSetters (name :: as) ↔ name ∉ setterNames ∧ NoSetters as := by
  simp only [NoSetters, List.forall_mem_cons]

instance (attributes : List String) : Decidable (NoSetters attributes) :=
  inferInstanceAs (Decidable (∀ name ∈ attributes, name ∉ setterNames))

namespace Routine

/-- Code that cannot write a slot: it asks for nothing that does. -/
def Harmless : Routine → Prop
  | written f => NoSetters f.attributes
  | support owner name => support owner name ∉ setters

instance (r : Routine) : Decidable r.Harmless :=
  match r with
  | written f => inferInstanceAs (Decidable (NoSetters f.attributes))
  | support owner name => inferInstanceAs (Decidable (support owner name ∉ setters))

/-- What is found under any other name is none of the setters. -/
theorem harmless_support {owner name : String} (plain : name ∉ setterNames) :
    (support owner name).Harmless := by
  intro setter
  simp only [setters, List.mem_cons, List.not_mem_nil, or_false, support.injEq] at setter
  rcases setter with ⟨-, rfl⟩ | ⟨-, rfl⟩ | ⟨-, rfl⟩ <;> exact plain (by decide)

end Routine

namespace Datum

mutual

/-- The routines that stand in a value. -/
def routines : Datum → List Routine
  | list items _ => routinesAll items
  | tuple items _ => routinesAll items
  | dict entries _ => routinesEntries entries
  | slice start stop step => start.routines ++ stop.routines ++ step.routines
  | iterator items => routinesAll items
  | routine r => [r]
  | method self r => r :: self.routines
  | callback _ extra => routinesAll extra
  | _ => []

def routinesAll : List Datum → List Routine
  | [] => []
  | x :: xs => x.routines ++ routinesAll xs

def routinesEntries : List (Datum × Datum) → List Routine
  | [] => []
  | (k, v) :: rest => k.routines ++ v.routines ++ routinesEntries rest

end

/-- A value that hands no code to others which could write a slot. -/
def Harmless (v : Datum) : Prop := ∀ r ∈ v.routines, r.Harmless

instance (v : Datum) : Decidable v.Harmless :=
  inferInstanceAs (Decidable (∀ r ∈ v.routines, r.Harmless))

theorem mem_routinesAll {xs : List Datum} {r : Routine} :
    r ∈ routinesAll xs ↔ ∃ x ∈ xs, r ∈ x.routines := by
  induction xs with
  | nil => simp [routinesAll]
  | cons x xs ih => simp [routinesAll, ih]

theorem mem_routinesEntries {es : List (Datum × Datum)} {r : Routine} :
    r ∈ routinesEntries es ↔ ∃ e ∈ es, r ∈ e.1.routines ∨ r ∈ e.2.routines := by
  induction es with
  | nil => simp [routinesEntries]
  | cons e es ih => simp [routinesEntries, ih, or_assoc]

/-- A value without code is harmless. -/
theorem harmless_of_plain {v : Datum} (plain : v.routines = []) : v.Harmless := by
  simp [Harmless, plain]

theorem forall_mem_routinesAll {xs : List Datum} :
    (∀ r ∈ routinesAll xs, r.Harmless) ↔ ∀ x ∈ xs, x.Harmless := by
  simp only [mem_routinesAll, Harmless]
  constructor
  · exact fun all x mem r held => all r ⟨x, mem, held⟩
  · rintro all r ⟨x, mem, held⟩
    exact all x mem r held

variable {xs : List Datum} {label : Nat}

@[simp] theorem harmless_list : (list xs label).Harmless ↔ ∀ x ∈ xs, x.Harmless :=
  forall_mem_routinesAll

@[simp] theorem harmless_tuple : (tuple xs label).Harmless ↔ ∀ x ∈ xs, x.Harmless :=
  forall_mem_routinesAll

@[simp] theorem harmless_iterator : (iterator xs).Harmless ↔ ∀ x ∈ xs, x.Harmless :=
  forall_mem_routinesAll

@[simp] theorem harmless_callback {c : Callback} :
    (callback c xs).Harmless ↔ ∀ x ∈ xs, x.Harmless :=
  forall_mem_routinesAll

@[simp] theorem harmless_dict {es : List (Datum × Datum)} :
    (dict es label).Harmless ↔ ∀ e ∈ es, e.1.Harmless ∧ e.2.Harmless := by
  simp only [Harmless, routines, mem_routinesEntries]
  constructor
  · exact fun all e mem => ⟨fun r held => all r ⟨e, mem, .inl held⟩,
      fun r held => all r ⟨e, mem, .inr held⟩⟩
  · rintro all r ⟨e, mem, held | held⟩
    · exact (all e mem).1 r held
    · exact (all e mem).2 r held

@[simp] theorem harmless_slice {start stop step : Datum} :
    (slice start stop step).Harmless ↔ start.Harmless ∧ stop.Harmless ∧ step.Harmless := by
  simp only [Harmless, routines, List.mem_append, or_imp, forall_and, and_assoc]

@[simp] theorem harmless_routine {r : Routine} : (routine r).Harmless ↔ r.Harmless := by
  simp [Harmless, routines]

@[simp] theorem harmless_method {self : Datum} {r : Routine} :
    (method self r).Harmless ↔ r.Harmless ∧ self.Harmless := by
  simp [Harmless, routines]

end Datum

/-- Values that are all harmless. -/
def AllHarmless (vs : List Datum) : Prop := ∀ v ∈ vs, v.Harmless

instance (vs : List Datum) : Decidable (AllHarmless vs) :=
  inferInstanceAs (Decidable (∀ v ∈ vs, v.Harmless))

/-- Every slot on the heap holds a harmless value. -/
def Heap.Harmless (h : Heap) : Prop := ∀ i ∈ h.instances, ∀ slot ∈ i.slots, slot.2.Harmless

/-- What a class offers is harmless. -/
def Attribute.Harmless : Attribute → Prop
  | slot _ => True
  | property r => r.Harmless
  | method r => r.Harmless
  | value v => v.Harmless

end Polyad.Machine
