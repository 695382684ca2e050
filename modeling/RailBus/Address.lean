import RailBus.WireError

/-!
# Node addresses

A node is addressed by the path that leads to it from the interface: up to four components, none
of them zero. On the line the path is a stack closed by a zero byte.
-/

namespace RailBus

def maxDepth : Nat := 4

structure Address where
  components : List UInt8
  depth_le : components.length ≤ maxDepth
  ne_zero : ∀ c ∈ components, c ≠ 0
  deriving DecidableEq

namespace Address

/-- The interface itself. -/
def root : Address := ⟨[], by decide, by simp⟩

instance : Inhabited Address := ⟨root⟩

def depth (a : Address) : Nat := a.components.length

def isRoot (a : Address) : Bool := a.components.isEmpty

/-- Addresses sort as in a tree walk: a node comes right before what lies below it. -/
instance : LT Address := ⟨fun a b => a.components < b.components⟩

instance (a b : Address) : Decidable (a < b) :=
  inferInstanceAs (Decidable (a.components < b.components))

theorem lt_trans {a b c : Address} (hab : a < b) (hbc : b < c) : a < c :=
  List.lt_trans hab hbc

theorem eq_of_components_eq {a b : Address} (h : a.components = b.components) : a = b := by
  cases a; cases b; cases h; rfl

theorem lt_of_not_lt_of_ne {a b : Address} (h : ¬ a < b) (hne : a ≠ b) : b < a :=
  show b.components < a.components from
    Std.lt_of_le_of_ne (List.not_lt.1 h) fun he => hne (eq_of_components_eq he.symm)

def compare (a b : Address) : Ordering :=
  if a < b then .lt else if a = b then .eq else .gt

/-- Ascending. -/
def sort (l : List Address) : List Address := l.mergeSort fun a b => !(b < a)

def ofComponents (components : List UInt8) : Except AddressError Address :=
  if depth_le : components.length ≤ maxDepth then
    if ne_zero : components.all (· != 0) then .ok ⟨components, depth_le, by simpa using ne_zero⟩
    else .error (.zeroComponent components)
  else .error (.tooDeep components.length)

/-- Reads a stack of fixed size, in which only zeros may follow the components. -/
def ofStack (stack : Bytes) : Except AddressError Address :=
  if (stack.dropWhile (· != 0)).all (· == 0) then ofComponents (stack.takeWhile (· != 0))
  else .error (.afterTerminator stack)

/-- The components and the zero that closes them. -/
def stack (a : Address) : Bytes := a.components ++ [0]

def stackLength (a : Address) : Nat := a.depth + 1

/-- Reads an address off the front of a byte string and returns what follows it. -/
def read (bs : Bytes) : Except WireError (Address × Bytes) :=
  let components := (bs.take (maxDepth + 1)).takeWhile (· != 0)
  if components.length = maxDepth + 1 then .error (.invalidAddress .noTerminator)
  else if components.length = bs.length then
    .error (.truncated (bs.length + 1) bs.length)
  else
    match ofComponents components with
    | .ok a => .ok (a, bs.drop a.stackLength)
    | .error e => .error (.invalidAddress e)

def isPrefixOf (a b : Address) : Bool := a.components.isPrefixOf b.components

/-- A strict prefix: `b` lies below `a`. -/
def isAncestorOf (a b : Address) : Bool := a.isPrefixOf b && a.depth < b.depth

def parent? (a : Address) : Option Address :=
  if a.isRoot then none
  else some ⟨a.components.dropLast,
    by have := a.depth_le; simp only [List.length_dropLast]; omega,
    fun c h => a.ne_zero c (List.dropLast_subset _ h)⟩

def child (a : Address) (component : UInt8) : Except AddressError Address :=
  ofComponents (a.components ++ [component])

end Address
end RailBus
