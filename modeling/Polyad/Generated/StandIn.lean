import Polyad.Code.Layout
import Polyad.Draft
import Polyad.Generated.Files

/-!
# Stand-ins

Generated code for drafts, whose names need not be texts. A value that is no text gets a stand-in, a
character of the private planes, under which code is generated; afterwards `restore` puts a value
that stands alone in the place of its stand-in, and `fill` the text of a value among other text.
Where texts are joined, only texts can be: `Cast` tells before anything is generated.
-/

namespace Polyad.Generated

open Code

/-- The values that have stand-ins, in order. -/
structure StandIns where
  values : List Value := []

abbrev StandInM := StateM StandIns

namespace StandIns

/-- The first stand-in. -/
def first : Nat := 0xf0000

/-- A text as it is, or the stand-in of another value. -/
def word (v : Value) : StandInM String := do
  match v with
  | .str s => return s
  | v =>
    let known := (← get).values
    set { values := known ++ [v] : StandIns }
    return String.singleton (Char.ofNat (first + known.length))

def valueOf? (s : StandIns) (c : Char) : Option Value :=
  if first ≤ c.toNat then s.values[c.toNat - first]? else none

/-- The value that a text is the stand-in of. -/
def standsFor? (s : StandIns) (text : String) : Option Value :=
  match text.toList with
  | [c] => s.valueOf? c
  | _ => none

/-- A text with the texts of values in the places of their stand-ins. -/
def fill (s : StandIns) (text : String) : String :=
  String.ofList <| text.toList.flatMap fun c =>
    match s.valueOf? c with
    | some v => v.text.toList
    | none => [c]

mutual

/-- A value with the values themselves where a stand-in stands alone. -/
def restore (s : StandIns) : Value → Value
  | .str t => (s.standsFor? t).getD (.str (s.fill t))
  | .list items => .list (s.restoreAll items)
  | .dict entries => .dict (s.restoreEntries entries)
  | v => v

def restoreAll (s : StandIns) : List Value → List Value
  | [] => []
  | v :: vs => s.restore v :: s.restoreAll vs

def restoreEntries (s : StandIns) : List (Value × Value) → List (Value × Value)
  | [] => []
  | (k, v) :: rest => (k, s.restore v) :: s.restoreEntries rest

end

/-! ## Outlines that become texts -/

/-- An annotation; one that says nothing is none. -/
def settleType (s : StandIns) (t : TypeTerm) : TypeTerm :=
  match s.standsFor? t.text with
  | some v => if v.truthy then t else .name ""
  | none => t

/-- A parameter that can be joined with others: its name alone must be a text. -/
def settleParameter (s : StandIns) (p : Parameter) : Except Error Parameter :=
  let type := p.annotation.map s.settleType
  let alone := (type.map TypeTerm.text).getD "" == "" && p.default.isNone && !p.variadic
  if alone && (s.standsFor? p.name).isSome then .error .wrongType
  else .ok { p with annotation := type }

def settleFunction (s : StandIns) (f : Function) : Except Error Function := do
  return { f with
    parameters := ← f.parameters.mapM s.settleParameter
    returns := f.returns.map s.settleType }

def settleItem (s : StandIns) : ClassItem → Except Error ClassItem
  | .function f => (s.settleFunction f).map .function
  | .assignment a => .ok (.assignment a)

/-- A class whose bases and parameters can be joined. -/
def settleClass (s : StandIns) (c : ClassDef) : Except Error ClassDef :=
  if c.bases.any fun b => (s.standsFor? b.text).isSome then .error .wrongType
  else do return { c with items := ← c.items.mapM s.settleItem }

def settleDefinition (s : StandIns) : Definition → Except Error Definition
  | .classDef c => (s.settleClass c).map .classDef
  | .function f => (s.settleFunction f).map .function
  | .assignment a => .ok (.assignment a)

/-- An import; no name means the whole module, and only texts can be put in order. -/
def settleImport (s : StandIns) (i : Import) : Except Error Import :=
  match i.name.bind s.standsFor? with
  | none => .ok i
  | some .null => .ok { i with name := none }
  | some _ => .error .wrongType

/-- A file that can be laid out. -/
def settle (s : StandIns) (f : File) : Except Error File := do
  return { f with
    imports := ← f.imports.mapM s.settleImport
    body := ← f.body.mapM s.settleDefinition }

end StandIns

/-! ## Typed objects of drafts -/

/-- The member of a draft under stand-ins; an arity that is no whole number counts as none. -/
def standInMember (d : Draft) : StandInM Member := do
  let whole := d.arity.toInt?.or (d.arity.toFloat?.bind Decimal.toInt?)
  return {
    arity := whole.getD 0
    interfaceName := ← StandIns.word d.interfaceName
    className := ← StandIns.word d.className
    labels := ← d.labels.mapM StandIns.word
    typeParams := ← d.typeParams.mapM StandIns.word
    ordinals := ← d.ordinals.mapM StandIns.word
    capabilities := d.capabilities
    extension := d.extension }

/-- The family of a draft under stand-ins. -/
def standInFamily (d : FamilyDraft) : StandInM (Except Error Family) := do
  return Family.ofMembers (d.members.length - 1) (← d.members.mapM standInMember)

/-- A draft of a member and one of a family, with their typed objects. -/
structure Cast where
  member : Option (Draft × Member) := none
  family : Option (FamilyDraft × Family) := none
  standIns : StandIns := {}

/-- A family without values, for members that ask nothing of theirs. -/
def noFamily : Family where
  maxArity := 0
  members := [{
    arity := 0, interfaceName := "Tuple0", className := "NullTuple", extension := .overflow }]
  consistent := by
    simp [checkFamily, checkPositions, checkExtensions, Member.shape, Shape.isTerminal]
    rfl

/-- Texts that are joined must be texts. -/
def joinable (vs : List Value) : Except Error Unit :=
  if vs.all fun v => v matches .str _ then .ok () else .error .wrongType

/-- Where positions are counted, the arity is a whole number. -/
def countable (arity : Value) : Except Error Unit :=
  if arity.toInt?.isSome then .ok () else .error .wrongType

/-- The member above a draft, if the family has it. -/
def above (f : FamilyDraft) (d : Draft) : Except Error (Option Draft) :=
  if d.arity.isNumber then f.get (Naming.nextArity d.arity) else .error .wrongType

def checkToList (d : Draft) : Except Error Unit := if d.isNull then .ok () else countable d.arity

def checkConversions (d : Draft) (m : Member) : Except Error Unit := do
  if m.has .listProjection then checkToList d
  if m.has .mapProjection then countable d.arity
  if (Native.of? m).isSome then joinable d.typeParams

/-- What must hold of a draft before its contract is put together. -/
def checkContract (d : Draft) : Except Error Unit := do
  d.validate
  if !d.isNull then
    joinable d.typeParams
    countable d.arity

/-- What must hold of a draft before its concrete class is put together; one value needs no word for
its number. -/
def checkConcrete (d : Draft) : Except Error Unit := do
  d.validate
  joinable d.typeParams
  if !d.arity.same (.int 1) then countable d.arity

namespace Cast

def ofDrafts (member : Option Draft) (family : Option FamilyDraft) : Cast :=
  let make : StandInM (Option Member × Option (Except Error Family)) := do
    return (← member.mapM standInMember, ← family.mapM standInFamily)
  let ((m, f), standIns) := make.run {}
  { member := do return (← member, ← m)
    family := do return (← family, ← (← f).toOption)
    standIns }

def theMember (c : Cast) : Except Error (Draft × Member) := present c.member

def theFamily (c : Cast) : Except Error (FamilyDraft × Family) := present c.family

def contract (c : Cast) (runtime : String) : Except Error ClassDef := do
  let (d, m) ← c.theMember
  checkContract d
  let (fd, f) ← c.theFamily
  let _ ← above fd d
  Generated.contract m f runtime

def concrete (c : Cast) : Except Error ClassDef := do
  let (d, m) ← c.theMember
  checkConcrete d
  let _ ← concreteDocstring m
  if m.has .chainExtension then
    let _ ← above (← c.theFamily).1 d
  if m.has .zip then
    let _ ← c.theFamily
  concreteClass m ((c.family.map (·.2)).getD noFamily)

def null (c : Cast) : Except Error (List Definition) := do
  let (d, m) ← c.theMember
  let (fd, f) ← c.theFamily
  let _ ← above fd d
  nullClass m f

def toList (c : Cast) : Except Error Function := do
  let (d, m) ← c.theMember
  checkToList d
  return toListMethod m

def toMap (c : Cast) : Except Error Function := do
  let (d, m) ← c.theMember
  countable d.arity
  return toMapMethod m

def toNative (c : Cast) : Except Error (List Function) := do
  let (d, m) ← c.theMember
  let methods ← toNativeMethods m
  joinable d.typeParams
  return methods

/-- An empty class with the conversions of the member. -/
def interop (c : Cast) : Except Error ClassDef := do
  let (d, m) ← c.theMember
  checkConversions d m
  return withConversions { name := m.interfaceName } m

/-- What must hold of a family before its type variables are declared. -/
def checkVariables (fd : FamilyDraft) : Except Error Unit := do
  countable fd.maxArity
  if !(fd.members.getLast?.map fun d => Value.allHashable d.typeParams).getD true then
    throw .wrongType

/-- The type variables of a family as texts or stand-ins, those of the projections only if wanted.
-/
def variableNames (c : Cast) (projections : Bool) : Except Error (List String) := do
  let (fd, f) ← c.theFamily
  countable fd.maxArity
  if projections then typeVarNames f
  else
    checkVariables fd
    concreteTypeVars f

def typeVariables (c : Cast) : Except Error (List Assignment) := do
  let (fd, f) ← c.theFamily
  checkVariables fd
  Generated.typeVariables f

def checkConverters (fd : FamilyDraft) (f : Family) : Except Error Unit :=
  (fd.members.zip f.members).forM fun (d, m) => do
    if (Native.of? m).isSome then
      joinable d.typeParams
      joinable d.ordinals

/-- A single class needs no joining. -/
def checkFactory (fd : FamilyDraft) : Except Error Unit :=
  match fd.members.tail with
  | [_] => .ok ()
  | ds => joinable (ds.map (·.className))

def nativeConverters (c : Cast) : Except Error (List Function) := do
  let (fd, f) ← c.theFamily
  checkConverters fd f
  return Generated.nativeConverters f

def factory (c : Cast) (runtime : String) : Except Error (List Definition) := do
  let (fd, f) ← c.theFamily
  checkFactory fd
  return Generated.factory f runtime

/-- The casts of the members of a family. -/
def members (c : Cast) : List Cast :=
  match c.family with
  | none => []
  | some (fd, f) => (fd.members.zip f.members).map fun dm => { c with member := some dm }

def contractsFile (c : Cast) (runtime name : String) : Except Error File := do
  let _ ← c.typeVariables
  c.members.forM fun m => do
    let _ ← m.contract runtime
    let _ ← m.interop
  Generated.contractsFile (← c.theFamily).2 runtime name

def concretesFile (c : Cast) (runtime contracts name : String) : Except Error File := do
  let _ ← c.variableNames false
  c.members.forM fun m => do
    let (d, _) ← m.theMember
    if d.isNull then
      let _ ← m.null
    else
      let _ ← m.concrete
  let _ ← c.nativeConverters
  let _ ← c.factory runtime
  Generated.concretesFile (← c.theFamily).2 runtime contracts name

end Cast

/-! ## Parts of texts -/

/-- The items of a value as texts to be joined. -/
def textsOf (v : Value) : Except Error (List String) :=
  match v.items? with
  | none => .error .wrongType
  | some vs => vs.mapM fun
    | .str s => .ok s
    | _ => .error .wrongType

/-- A generic type of any name; without parameters it is the name. -/
def genericOf (name params : Value) : Except Error Value :=
  if !params.truthy then .ok name
  else do return .str (TypeTerm.generic name.text (TypeTerm.names (← textsOf params))).text

def callableText (params result : Value) : Except Error String := do
  return (callableOf (← textsOf params) (.name result.text)).text

/-- The text of a tuple; a lone item may be of any type, but must stand first. -/
def tupleOf (items : Value) : Except Error String :=
  match items.content with
  | .dict [_] => .error (.missingKey (.int 0))
  | .set [_] => .error .wrongType
  | _ =>
    match items.items? with
    | some [v] => .ok (Expr.tuple [.name v.text]).text
    | _ => do return (Expr.tuple ((← textsOf items).map .name)).text

def attrsOf (owner names : Value) : Except Error (List String) :=
  match names.items? with
  | none => .error .wrongType
  | some vs => .ok ((Expr.attrs owner.text (vs.map (·.text))).map (·.text))

end Polyad.Generated
