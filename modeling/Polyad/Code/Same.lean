import Polyad.Code.Outline

/-!
# Telling code apart

Whether two types, two expressions or two functions are the same. Types and expressions stand inside
lists of their own kind, so their comparison goes along with that of such lists.
-/

namespace Polyad.Code

namespace TypeTerm

mutual

def same : TypeTerm → TypeTerm → Bool
  | name s, name t => s == t
  | applied f as, applied g bs => f == g && sameAll as bs
  | callable ps r, callable qs q => sameAll ps qs && same r q
  | _, _ => false

def sameAll : List TypeTerm → List TypeTerm → Bool
  | [], [] => true
  | a :: as, b :: bs => same a b && sameAll as bs
  | _, _ => false

end

mutual

theorem same_iff : ∀ {a b : TypeTerm}, same a b = true ↔ a = b
  | name _, b => by cases b <;> simp [same]
  | applied _ as, b => by cases b <;> simp [same, sameAll_iff]
  | callable ps r, b => by cases b <;> simp [same, sameAll_iff, same_iff (a := r)]

theorem sameAll_iff : ∀ {as bs : List TypeTerm}, sameAll as bs = true ↔ as = bs
  | [], bs => by cases bs <;> simp [sameAll]
  | a :: as, bs => by cases bs <;> simp [sameAll, same_iff (a := a), @sameAll_iff as]

end

instance : DecidableEq TypeTerm := fun _ _ => decidable_of_iff _ same_iff

end TypeTerm

namespace Expr

mutual

def same : Expr → Expr → Bool
  | name s, name t => s == t
  | int m, int n => m == n
  | literal s, literal t => s == t
  | attr a s, attr b t => same a b && s == t
  | call f as, call g bs => same f g && sameAll as bs
  | spread a, spread b => same a b
  | keyword s a, keyword t b => s == t && same a b
  | tuple as, tuple bs => sameAll as bs
  | list as, list bs => sameAll as bs
  | dict as, dict bs => sameEntries as bs
  | index a i, index b j => same a b && same i j
  | identical a a', identical b b' => same a b && same a' b'
  | equal a a', equal b b' => same a b && same a' b'
  | more a a', more b b' => same a b && same a' b'
  | minus a a', minus b b' => same a b && same a' b'
  | negate a, negate b => same a b
  | template as, template bs => sameAll as bs
  | shown a, shown b => same a b
  | _, _ => false

def sameAll : List Expr → List Expr → Bool
  | [], [] => true
  | a :: as, b :: bs => same a b && sameAll as bs
  | _, _ => false

def sameEntries : List (Expr × Expr) → List (Expr × Expr) → Bool
  | [], [] => true
  | (k, a) :: as, (l, b) :: bs => same k l && same a b && sameEntries as bs
  | _, _ => false

end

mutual

theorem same_iff : ∀ {a b : Expr}, same a b = true ↔ a = b
  | name _, b => by cases b <;> simp [same]
  | int _, b => by cases b <;> simp [same]
  | literal _, b => by cases b <;> simp [same]
  | attr a _, b => by cases b <;> simp [same, same_iff (a := a)]
  | call f as, b => by cases b <;> simp [same, same_iff (a := f), @sameAll_iff as]
  | spread a, b => by cases b <;> simp [same, same_iff (a := a)]
  | keyword _ a, b => by cases b <;> simp [same, same_iff (a := a)]
  | tuple as, b => by cases b <;> simp [same, @sameAll_iff as]
  | list as, b => by cases b <;> simp [same, @sameAll_iff as]
  | dict as, b => by cases b <;> simp [same, @sameEntries_iff as]
  | index a i, b => by cases b <;> simp [same, same_iff (a := a), same_iff (a := i)]
  | identical a i, b => by cases b <;> simp [same, same_iff (a := a), same_iff (a := i)]
  | equal a i, b => by cases b <;> simp [same, same_iff (a := a), same_iff (a := i)]
  | more a i, b => by cases b <;> simp [same, same_iff (a := a), same_iff (a := i)]
  | minus a i, b => by cases b <;> simp [same, same_iff (a := a), same_iff (a := i)]
  | negate a, b => by cases b <;> simp [same, same_iff (a := a)]
  | template as, b => by cases b <;> simp [same, @sameAll_iff as]
  | shown a, b => by cases b <;> simp [same, same_iff (a := a)]

theorem sameAll_iff : ∀ {as bs : List Expr}, sameAll as bs = true ↔ as = bs
  | [], bs => by cases bs <;> simp [sameAll]
  | a :: as, bs => by cases bs <;> simp [sameAll, same_iff (a := a), @sameAll_iff as]

theorem sameEntries_iff : ∀ {as bs : List (Expr × Expr)}, sameEntries as bs = true ↔ as = bs
  | [], bs => by cases bs <;> simp [sameEntries]
  | (k, a) :: as, bs => by
    rcases bs with - | ⟨⟨l, b⟩, bs⟩ <;>
      simp [sameEntries, same_iff (a := k), same_iff (a := a), @sameEntries_iff as]

end

instance : DecidableEq Expr := fun _ _ => decidable_of_iff _ same_iff

end Expr

deriving instance DecidableEq for Stmt
deriving instance DecidableEq for Parameter
deriving instance DecidableEq for Function

end Polyad.Code
