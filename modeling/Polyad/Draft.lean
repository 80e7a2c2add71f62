import Polyad.Family

/-!
# Drafts

Members and families as documents give them. The number and order of fields are checked, and
capabilities and extensions must be known ones, but names and arities may be values of any type.
`toValue` and `ofValue` are the document form; `Draft.toMember?` and `FamilyDraft.toFamily?` give
the typed objects where the fields have the types of one.
-/

namespace Polyad

structure Draft where
  arity : Value
  interfaceName : Value
  className : Value
  labels : List Value
  typeParams : List Value
  ordinals : List Value
  capabilities : Capabilities
  extension : Extension

/-- The entries of a mapping; nothing else has keys. -/
def entriesOf (v : Value) : Except Error (List (Value × Value)) :=
  match v.bare with
  | .dict es => .ok es
  | _ => .error .wrongType

/-- The value under a name that must be there. -/
def required (es : List (Value × Value)) (name : String) : Except Error Value :=
  match Value.lookup (.str name) es with
  | some v => .ok v
  | none => .error (.missingKey (.str name))

/-- The items under a name; an absent name has none. -/
def itemsUnder (es : List (Value × Value)) (name : String) : Except Error (List Value) :=
  match Value.lookup (.str name) es with
  | none => .ok []
  | some v => match v.items? with
    | some vs => .ok vs
    | none => .error .wrongType

def capabilityOf (v : Value) : Except Error Capability :=
  match v with
  | .str s => match Capability.ofName? s with
    | some c => .ok c
    | none => .error (.notAMember "Capability" v)
  | v => .error (.notAMember "Capability" v)

def extensionOf (v : Value) : Except Error Extension :=
  match v with
  | .str s => match Extension.ofName? s with
    | some e => .ok e
    | none => .error (.notAMember "ExtensionPolicy" v)
  | v => .error (.notAMember "ExtensionPolicy" v)

namespace Draft

def ofMember (m : Member) : Draft where
  arity := .int m.arity
  interfaceName := .str m.interfaceName
  className := .str m.className
  labels := m.labels.map .str
  typeParams := m.typeParams.map .str
  ordinals := m.ordinals.map .str
  capabilities := m.capabilities
  extension := m.extension

def strings? (vs : List Value) : Option (List String) :=
  vs.mapM fun
    | .str s => some s
    | _ => none

/-- The member a draft describes, if its fields have the types of one. -/
def toMember? (d : Draft) : Option Member :=
  match d.arity, d.interfaceName, d.className with
  | .int arity, .str interfaceName, .str className => do
    return {
      arity, interfaceName, className
      labels := ← strings? d.labels
      typeParams := ← strings? d.typeParams
      ordinals := ← strings? d.ordinals
      capabilities := d.capabilities
      extension := d.extension }
  | _, _, _ => none

/-- The document form: fields in this order, capabilities by name. -/
def toValue (d : Draft) : Value :=
  .dict [
    (.str "arity", d.arity),
    (.str "interface_name", d.interfaceName),
    (.str "class_name", d.className),
    (.str "labels", .list d.labels),
    (.str "type_params", .list d.typeParams),
    (.str "ordinals", .list d.ordinals),
    (.str "capabilities", .list (d.capabilities.toList.map (.str ·.name))),
    (.str "extension", .str d.extension.name)]

def ofValue (v : Value) : Except Error Draft := do
  let es ← entriesOf v
  let arity ← required es "arity"
  let interfaceName ← required es "interface_name"
  let className ← required es "class_name"
  let labels ← itemsUnder es "labels"
  let typeParams ← itemsUnder es "type_params"
  let ordinals ← itemsUnder es "ordinals"
  let capabilities ← (← itemsUnder es "capabilities").mapM capabilityOf
  let extension ← extensionOf ((Value.lookup (.str "extension") es).getD (.str "typed"))
  return {
    arity, interfaceName, className, labels, typeParams, ordinals
    capabilities := .ofList capabilities
    extension }

/-- Whether `a` is less than `b`, which must both be numbers. -/
def isLess (a b : Value) : Except Error Bool :=
  match a.less? b with
  | some r => .ok r
  | none => .error .wrongType

/-- Whether `a` is a number of at least `n`. -/
def isAtLeast (a : Value) (n : Int) : Except Error Bool := do
  return (← isLess (.int n) a) || a.same (.int n)

/-- What an arity of any type can do in a family of a bound of any type; the bound is compared only
where the arity leaves a choice. -/
def capabilitiesFor (arity maxArity : Value) : Except Error Capabilities := do
  let severalHeld ← isAtLeast arity 2
  let someHeld ← isAtLeast arity 1
  return {
    pairInterop := arity.same (.int 2)
    tripleInterop := arity.same (.int 3)
    listProjection := true
    mapProjection := severalHeld && arity.isEven
    zip := ← if someHeld then isAtLeast maxArity 2 else pure false
    chainExtension := ← isLess arity maxArity }

/-- The member of an arity of any type, named from the tables. -/
def forArity (arity maxArity : Value) : Except Error Draft := do
  let isNull := arity.same (.int 0)
  let className ← if isNull then pure (.str "NullTuple") else Naming.Table.familyName.entry arity
  let some count := arity.toInt? | throw .wrongType
  return {
    arity := arity
    interfaceName := .str (if isNull then "Tuple0" else "Tuple" ++ arity.text)
    className := className
    labels := (← Naming.positionLabels count).map .str
    typeParams := (← Naming.typeParams count).map .str
    ordinals := (← Naming.ordinals count).map .str
    capabilities := ← capabilitiesFor arity maxArity
    extension := if arity.same maxArity then .overflow else .typed }

def shape (d : Draft) : Shape where
  arity := d.arity
  interfaceName := d.interfaceName
  labels := d.labels
  params := d.typeParams.length
  ordinals := d.ordinals.length
  extension := d.extension

def validate (d : Draft) : Except Error Unit := d.shape.validate

def isNull (d : Draft) : Bool := d.arity.same (.int 0)

def isTerminal (d : Draft) : Bool := d.extension == .overflow

def has (d : Draft) (c : Capability) : Bool := d.capabilities.has c

def same (a b : Draft) : Bool :=
  a.arity.same b.arity && a.interfaceName.same b.interfaceName && a.className.same b.className &&
    Value.sameList a.labels b.labels && Value.sameList a.typeParams b.typeParams &&
    Value.sameList a.ordinals b.ordinals && a.capabilities == b.capabilities &&
    a.extension == b.extension

end Draft

structure FamilyDraft where
  maxArity : Value
  members : List Draft
  consistent : checkFamily maxArity (members.map Draft.shape) = .ok ()

namespace FamilyDraft

def ofDrafts (maxArity : Value) (members : List Draft) : Except Error FamilyDraft :=
  match h : checkFamily maxArity (members.map Draft.shape) with
  | .ok () => .ok ⟨maxArity, members, h⟩
  | .error e => .error e

theorem shape_ofMember (m : Member) : (Draft.ofMember m).shape = m.shape := by
  simp [Draft.shape, Draft.ofMember, Member.shape]

def ofFamily (f : Family) : FamilyDraft where
  maxArity := .int f.maxArity
  members := f.members.map Draft.ofMember
  consistent := by
    rw [List.map_map, show Draft.shape ∘ Draft.ofMember = Member.shape from funext shape_ofMember]
    exact f.consistent

/-- The family a draft describes, if its fields have the types of one. -/
def toFamily? (d : FamilyDraft) : Option Family :=
  match d.maxArity, d.members.mapM Draft.toMember? with
  | .int n, some ms => (Family.ofMembers n ms).toOption
  | _, _ => none

def toValue (d : FamilyDraft) : Value :=
  .dict [
    (.str "max_arity", d.maxArity),
    (.str "members", .list (d.members.map Draft.toValue))]

def ofValue (v : Value) : Except Error FamilyDraft := do
  let es ← entriesOf v
  let maxArity ← required es "max_arity"
  let members ← (← itemsUnder es "members").mapM Draft.ofValue
  ofDrafts maxArity members

def same (a b : FamilyDraft) : Bool :=
  a.maxArity.same b.maxArity && a.members.length == b.members.length &&
    (a.members.zip b.members).all fun (x, y) => x.same y

/-- Whether two families are equal, unless telling them apart never ends. -/
def compare (a b : FamilyDraft) : Except Error Bool :=
  if a.toValue.endless b.toValue then .error .endlessComparison else .ok (a.same b)

/-- The member of an arity of any type; a position must be a whole number. -/
def get (d : FamilyDraft) (arity : Value) : Except Error (Option Draft) :=
  match arity.content with
  | .float x =>
    if Decimal.intLe 0 x && !Decimal.intLe d.members.length x then .error .wrongType else .ok none
  | v => match v.toInt? with
    | some n => .ok (Naming.at? d.members n)
    | none => .error .wrongType

/-- The member one arity above the one of `arity`, which must be there. -/
def successor (d : FamilyDraft) (arity : Value) : Except Error (Option Draft) := do
  match ← d.get arity with
  | none => .error .absent
  | some m => d.get (Naming.nextArity m.arity)

end FamilyDraft

namespace Family

/-- The document form of a family. -/
def toValue (f : Family) : Value := (FamilyDraft.ofFamily f).toValue

def ofValue? (v : Value) : Except Error (Option Family) :=
  (FamilyDraft.ofValue v).map FamilyDraft.toFamily?

end Family
end Polyad
