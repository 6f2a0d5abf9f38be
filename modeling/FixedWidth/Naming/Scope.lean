/-!
# Naming/Scope — distinct names from repeated requests

A `Scope` remembers the names it gave out. A request for a name that is still free is granted as
it is; otherwise the first free one of `name_2`, `name_3`, … is given. `distinct` grants a whole
list of requests in order.
-/

namespace FixedWidth.Naming

/-- The names given out so far. -/
structure Scope where
  /-- The names that are taken. -/
  used : List String
  deriving DecidableEq, Repr

/-- A base with a number behind it. -/
def numbered (base : String) (k : Nat) : String := base ++ "_" ++ toString k

/-- The first number from `k` on that makes a free name, if the next `fuel` hold one. -/
def firstFree (used : List String) (base : String) : (fuel k : Nat) → Nat
  | 0, k => k
  | fuel + 1, k =>
    if used.contains (numbered base k) then firstFree used base fuel (k + 1) else k

namespace Scope

/-- Nothing given out yet. -/
def empty : Scope := ⟨[]⟩

/-- The name granted for a request. One of `used.length + 1` numbered names is always free. -/
def grant (scope : Scope) (base : String) : String :=
  if scope.used.contains base then
    numbered base (firstFree scope.used base (scope.used.length + 1) 2)
  else base

/-- Grants a request and remembers the name. -/
def unique (scope : Scope) (base : String) : String × Scope :=
  (scope.grant base, ⟨scope.grant base :: scope.used⟩)

/-- Grants requests one after the other. -/
def uniqueAll (scope : Scope) : List String → List String
  | [] => []
  | base :: rest =>
    let (name, next) := scope.unique base
    name :: next.uniqueAll rest

theorem length_uniqueAll (scope : Scope) (bases : List String) :
    (scope.uniqueAll bases).length = bases.length := by
  induction bases generalizing scope with
  | nil => rfl
  | cons base rest ih => simp [uniqueAll, ih]

end Scope

/-- The names that one fresh scope grants for a list of requests. -/
def distinct (bases : List String) : List String := Scope.empty.uniqueAll bases

end FixedWidth.Naming
