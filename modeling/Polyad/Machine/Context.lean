import Polyad.Machine.Program

/-!
# Comparing, hashing and showing

The operations that every value has, each defined along the value. Where they meet an instance they
call the method of its class, which runs code; how calls are run is left to the context, so that
these definitions need not know. A collection takes an item for equal to another if they are one and
the same or compare equal.
-/

namespace Polyad.Machine

/-- The program that runs, and how its routines are called. -/
structure Context where
  program : Program
  run : Routine → List Datum → Exec Datum

namespace Context

variable (cx : Context)

def className (id : Nat) : Exec String := do return (← Exec.getInstance id).className

/-- The method that an instance answers a name with. -/
def method? (id : Nat) (name : String) : Exec (Option Routine) := do
  match cx.program.find? (← className id) name with
  | some (.method r) => return some r
  | _ => return none

/-- A method that a class of its own or a supporting class provides, not one that all classes have.
-/
def special? (id : Nat) (name : String) : Exec (Option Routine) := do
  match ← cx.method? id name with
  | some (.support "object" _) => return none
  | r => return r

/-- Calls a method of an instance that must be there. -/
def send (id : Nat) (name : String) (args : List Datum) : Exec Datum := do
  match ← cx.special? id name with
  | some r => cx.run r (.object id :: args)
  | none => throw .wrongType

/-! ## Truth and length -/

def length : Datum → Exec Nat
  | .text s => return s.length
  | .list items _ => return items.length
  | .tuple items _ => return items.length
  | .dict entries _ => return entries.length
  | .object id => do
    match (← cx.send id "__len__" []).whole? with
    | some n => return n.toNat
    | none => throw .wrongType
  | _ => throw .wrongType

def truth : Datum → Exec Bool
  | .object id => do
    match ← cx.special? id "__len__" with
    | some _ => return (← cx.length (.object id)) != 0
    | none => return true
  | v => return v.nativeTruth

/-- The items met when a value is gone through. -/
def iterate : Datum → Exec (List Datum)
  | .text s => return s.toList.map fun c => .text (String.singleton c)
  | .list items _ => return items
  | .tuple items _ => return items
  | .dict entries _ => return entries.map Prod.fst
  | .iterator items => return items
  | .object id => do
    match ← cx.send id "__iter__" [] with
    | .iterator items => return items
    | _ => throw .wrongType
  | _ => throw .wrongType

/-! ## Equality -/

/-- What a value says about being equal to another. -/
def ask (x y : Datum) : Exec Datum := do
  match x with
  | .object id =>
    match ← cx.special? id "__eq__" with
    | some r => cx.run r [x, y]
    | none => return .notImplemented
  | _ => return .notImplemented

/-- Asks both sides in turn; if neither knows, only one and the same value is equal. -/
def negotiate (x y : Datum) : Exec Bool := do
  match ← cx.ask x y with
  | .notImplemented =>
    match ← cx.ask y x with
    | .notImplemented => return x.identical y
    | r => cx.truth r
  | r => cx.truth r

/-- Equality of values that hold no others, or that are instances. -/
def equalLeaf (x y : Datum) : Exec Bool :=
  match x, y with
  | .object _, _ => cx.negotiate x y
  | _, .object _ => cx.negotiate x y
  | x, y =>
    match x.number?, y.number? with
    | some a, some b => return a.same b
    | _, _ => return x.identical y

mutual

def equal : Datum → Datum → Exec Bool
  | .list xs _, .list ys _ => if xs.length == ys.length then equalItems xs ys else return false
  | .tuple xs _, .tuple ys _ => if xs.length == ys.length then equalItems xs ys else return false
  | .dict xs _, .dict ys _ =>
    if xs.length == ys.length then containsEntries ys xs else return false
  | .slice a b c, .slice a' b' c' => do
    if ← equal a a' then if ← equal b b' then equal c c' else return false
    else return false
  | x, y => cx.equalLeaf x y

/-- Whether the items of two lists match one by one. -/
def equalItems : List Datum → List Datum → Exec Bool
  | x :: xs, y :: ys => do
    if ← (if x.identical y then return true else equal x y) then equalItems xs ys
    else return false
  | [], [] => return true
  | _, _ => return false

/-- Whether each of the entries has its match among those of a mapping. -/
def containsEntries (ys : List (Datum × Datum)) : List (Datum × Datum) → Exec Bool
  | [] => return true
  | (k, v) :: rest => do
    match ← Exec.find? (fun e => if k.identical e.1 then return true else equal k e.1) ys with
    | some (_, w) =>
      if ← (if v.identical w then return true else equal v w) then containsEntries ys rest
      else return false
    | none => return false

end

/-- Tuples are compared whatever their labels. -/
theorem equal_tuple (xs ys : List Datum) (i j : Nat) :
    cx.equal (.tuple xs i) (.tuple ys j) = cx.equal (.tuple xs 0) (.tuple ys 0) := by
  simp only [equal]

/-- Equality as collections understand it. -/
def same (x y : Datum) : Exec Bool :=
  if x.identical y then return true else cx.equal x y

/-- Lists match if their first values do and the others match. -/
theorem equalItems_cons (x y : Datum) (xs ys : List Datum) :
    cx.equalItems (x :: xs) (y :: ys) =
      cx.same x y >>= fun b => if b then cx.equalItems xs ys else Pure.pure false := by
  rw [equalItems]
  rfl

/-! ## Hashing -/

def textDigest (s : String) : Digest := if s == "" then .number 0 else .text s

/-- The digest of a value that holds no others. -/
def leafDigest : Datum → Exec Digest
  | .null => return .named "None"
  | .text s => return textDigest s
  | .float x label =>
    match (Number.ofFloat x).code? with
    | some n => return .number n
    | none => return .float label
  | .digest d => return d
  | .type name => return .named name
  | .notImplemented => return .named "NotImplemented"
  | .list .. | .dict .. | .slice .. | .tuple .. | .object _ => throw .wrongType
  | v =>
    match v.whole? with
    | some n => return .number (Number.rationalCode n)
    | none => return .named ""

/-- The digest of an instance. -/
def instanceDigest (id : Nat) : Exec Digest := do
  match ← cx.special? id "__hash__" with
  | some r =>
    match ← cx.run r [.object id] with
    | .digest d => return d
    | v =>
      match v.whole? with
      | some n => return .number (Number.rationalCode n)
      | none => throw .wrongType
  | none => return .identity id

mutual

/-- What a value is filed under; values that could change have no digest. -/
def digest : Datum → Exec Digest
  | .tuple items _ => do return .ofItems (← digests items)
  | .object id => cx.instanceDigest id
  | v => leafDigest v

def digests : List Datum → Exec (List Digest)
  | [] => return []
  | x :: xs => do
    let d ← digest x
    return d :: (← digests xs)

end

theorem digest_tuple (xs : List Datum) (i : Nat) :
    cx.digest (.tuple xs i) = cx.digest (.tuple xs 0) := by
  simp only [digest]

/-! ## Mappings -/

/-- An entry put under a key: the first key and the last value stay. -/
def putEntry (key value : Datum) : List (Datum × Datum) → Exec (List (Datum × Datum))
  | [] => return [(key, value)]
  | (k, v) :: rest => do
    if ← cx.same k key then return (k, value) :: rest
    else return (k, v) :: (← putEntry key value rest)

/-- The entries put one after another, each under a key that has a digest. -/
def putEntries (entries : List (Datum × Datum)) : Exec (List (Datum × Datum)) :=
  entries.foldlM (fun done (k, v) => do
    let _ ← cx.digest k
    cx.putEntry k v done) []

/-- The value under a key. -/
def lookupEntry (key : Datum) (entries : List (Datum × Datum)) : Exec (Option Datum) := do
  let _ ← cx.digest key
  return (← Exec.find? (fun e => cx.same e.1 key) entries).map Prod.snd

/-- Whether some characters occur next to each other in others. -/
def occurs (part : List Char) : List Char → Bool
  | [] => part.isEmpty
  | c :: cs => part.isPrefixOf (c :: cs) || occurs part cs

/-- Whether a value is in another one: a part of a text, a key of a mapping, or an item. -/
def contains (collection x : Datum) : Exec Bool := do
  match collection, x with
  | .text s, .text part => return occurs part.toList s.toList
  | .text _, _ => throw .wrongType
  | .dict entries _, x => return (← cx.lookupEntry x entries).isSome
  | collection, x =>
    return (← Exec.find? (fun item => cx.same item x) (← cx.iterate collection)).isSome

/-! ## Text -/

def boolText (b : Bool) : String := if b then "True" else "False"

/-- The text of a value that holds no others. -/
def leafText : Datum → String
  | .null => "None"
  | .bool b => boolText b
  | .int n => toString n
  | .digest (.number n) => toString n
  | .float x _ => Decimal.format x
  | .text s => Text.quoted s
  | .notImplemented => "NotImplemented"
  | _ => "<object>"

def instanceText (id : Nat) : Exec String := do
  match ← cx.special? id "__repr__" with
  | some r =>
    match ← cx.run r [.object id] with
    | .text s => return s
    | _ => throw .wrongType
  | none => return "<" ++ (← className id) ++ " object>"

mutual

/-- The text of a value inside another one. -/
def shown : Datum → Exec String
  | .list items _ => do return listText (← shownItems items)
  | .tuple items _ => do return tupleText (← shownItems items)
  | .dict entries _ => do return dictText (← shownEntries entries)
  | .slice start stop step => do
    let first ← shown start
    let last ← shown stop
    return "slice(" ++ first ++ ", " ++ last ++ ", " ++ (← shown step) ++ ")"
  | .object id => cx.instanceText id
  | .type name => return "<class " ++ Text.quoted (cx.program.qualified name) ++ ">"
  | v => return leafText v

def shownItems : List Datum → Exec (List String)
  | [] => return []
  | x :: xs => do
    let s ← shown x
    return s :: (← shownItems xs)

def shownEntries : List (Datum × Datum) → Exec (List String)
  | [] => return []
  | (k, v) :: rest => do
    let s ← shown k
    let t ← shown v
    return (s ++ ": " ++ t) :: (← shownEntries rest)

end

/-- The text of a value that stands alone. -/
def plainText : Datum → Exec String
  | .text s => return s
  | v => cx.shown v

/-! ## Classes -/

def typeName : Datum → Exec String
  | .object id => className id
  | .type name => return if cx.program.isKindOf name "ABC" then "ABCMeta" else "type"
  | v => return v.nativeTypes.head?.getD "object"

def isInstance (x : Datum) (kind : String) : Exec Bool := do
  match x with
  | .object id => return cx.program.isKindOf (← className id) kind
  | v => return v.nativeTypes.contains kind

end Context
end Polyad.Machine
