import ExprLang.Value

-- Syntax trees.

namespace ExprLang

-- A parameter may occur twice.
structure Prototype where
  name : Value
  parameters : List Value
deriving DecidableEq, Inhabited

-- Names and numbers are what their tokens say. An operator is always a text,
-- for it has been looked up by it. Trees that are put together by hand may have
-- any node anywhere, even as the head of a function.
inductive Node where
  | number (value : Value)
  | var (name : Value)
  | binary (op : String) (left right : Node)
  | call (callee : Value) (arguments : List Node)
  | prototype (p : Prototype)
  | function (head body : Node)
deriving Inhabited

namespace Node

mutual

private def decEq (m n : Node) : Decidable (m = n) :=
  match m with
  | number v => match n with
    | number w => decidable_of_iff (v = w) (by simp)
    | var _ | binary .. | call .. | prototype _ | function .. => isFalse nofun
  | var v => match n with
    | var w => decidable_of_iff (v = w) (by simp)
    | number _ | binary .. | call .. | prototype _ | function .. => isFalse nofun
  | binary o l r => match n with
    | binary o' l' r' =>
      have := decEq l l'
      have := decEq r r'
      decidable_of_iff (o = o' ∧ l = l' ∧ r = r') (by simp)
    | number _ | var _ | call .. | prototype _ | function .. => isFalse nofun
  | call f as => match n with
    | call g bs =>
      have := decEqAll as bs
      decidable_of_iff (f = g ∧ as = bs) (by simp)
    | number _ | var _ | binary .. | prototype _ | function .. => isFalse nofun
  | prototype p => match n with
    | prototype q => decidable_of_iff (p = q) (by simp)
    | number _ | var _ | binary .. | call .. | function .. => isFalse nofun
  | function h b => match n with
    | function h' b' =>
      have := decEq h h'
      have := decEq b b'
      decidable_of_iff (h = h' ∧ b = b') (by simp)
    | number _ | var _ | binary .. | call .. | prototype _ => isFalse nofun

private def decEqAll : (ms ns : List Node) → Decidable (ms = ns)
  | [], [] => isTrue rfl
  | m :: ms, n :: ns =>
    have := decEq m n
    have := decEqAll ms ns
    decidable_of_iff (m = n ∧ ms = ns) (by simp)
  | [], _ :: _ | _ :: _, [] => isFalse nofun

end

instance : DecidableEq Node := decEq

end Node

inductive NodeKind where
  | number
  | var
  | binaryOp
  | call
  | prototype
  | function
deriving DecidableEq

def NodeKind.all : List NodeKind := [number, var, binaryOp, call, prototype, function]

def NodeKind.name : NodeKind → String
  | number => "Number"
  | var => "Variable"
  | binaryOp => "BinaryOp"
  | call => "Call"
  | prototype => "Prototype"
  | function => "Function"

def NodeKind.ofName? (name : String) : Option NodeKind :=
  all.find? (·.name = name)

def Prototype.anonymous : Prototype := ⟨.text "", []⟩

def Prototype.isAnonymous (p : Prototype) : Bool := p.name = .text ""

def Prototype.same (p q : Prototype) : Bool :=
  p.name.same q.name && p.parameters.isEqv q.parameters Value.same

theorem Value.isEqv_same_refl (values : List Value) : values.isEqv values Value.same := by
  induction values with
  | nil => rfl
  | cons v values ih => simp [List.isEqv, Value.same_refl, ih]

theorem Prototype.same_refl (p : Prototype) : p.same p := by
  simp [same, Value.same_refl, Value.isEqv_same_refl]

namespace Node

def kind : Node → NodeKind
  | number _ => .number
  | var _ => .var
  | binary .. => .binaryOp
  | call .. => .call
  | prototype _ => .prototype
  | function .. => .function

def children : Node → List Node
  | number _ | var _ | prototype _ => []
  | binary _ left right => [left, right]
  | call _ arguments => arguments
  | function head body => [head, body]

mutual

-- Equality, with both zeros as one number. Nodes of different kinds differ.
def same : Node → Node → Bool
  | number v, number w => v.same w
  | var v, var w => v.same w
  | binary o l r, binary o' l' r' => o = o' && l.same l' && r.same r'
  | call f as, call g bs => f.same g && sameAll as bs
  | prototype p, prototype q => p.same q
  | function h b, function h' b' => h.same h' && b.same b'
  | _, _ => false

def sameAll : List Node → List Node → Bool
  | [], [] => true
  | a :: as, b :: bs => a.same b && sameAll as bs
  | _, _ => false

end

mutual

-- The node and everything below it, from the top down and from left to right.
def walk (n : Node) : List Node :=
  n :: match n with
    | number _ | var _ | prototype _ => []
    | binary _ left right => left.walk ++ right.walk
    | call _ arguments => walkAll arguments
    | function head body => head.walk ++ body.walk

def walkAll : List Node → List Node
  | [] => []
  | n :: rest => n.walk ++ walkAll rest

end

-- Only prototypes and functions may lack a name. A function has that of its head.
def isAnonymous? : Node → Option Bool
  | prototype p => some p.isAnonymous
  | function head _ => head.isAnonymous?
  | number _ | var _ | binary .. | call .. => none

mutual

theorem same_refl : (n : Node) → n.same n
  | number v => by simp [same, Value.same_refl]
  | var v => by simp [same, Value.same_refl]
  | binary _ l r => by simp [same, l.same_refl, r.same_refl]
  | call f as => by simp [same, Value.same_refl, sameAll_refl as]
  | prototype p => by simp [same, p.same_refl]
  | function h b => by simp [same, h.same_refl, b.same_refl]

theorem sameAll_refl : (ns : List Node) → sameAll ns ns
  | [] => by simp [sameAll]
  | n :: ns => by simp [sameAll, n.same_refl, sameAll_refl ns]

end

theorem walkAll_eq_flatMap (ns : List Node) : walkAll ns = ns.flatMap walk := by
  induction ns with
  | nil => simp [walkAll]
  | cons n ns ih => simp [walkAll, ih]

-- The order in which nodes are met is that of their children.
theorem walk_eq_cons (n : Node) : n.walk = n :: n.children.flatMap walk := by
  cases n <;> simp [walk, children, walkAll_eq_flatMap]

theorem mem_walk_self (n : Node) : n ∈ n.walk := by
  rw [walk_eq_cons]
  exact List.mem_cons_self

end Node

-- What a program defines. A bare expression is the body of a definition without
-- a name.
structure Definition where
  prototype : Prototype
  body : Node
deriving DecidableEq, Inhabited

namespace Definition

def anonymous (body : Node) : Definition := ⟨.anonymous, body⟩

def node (d : Definition) : Node := .function (.prototype d.prototype) d.body

end Definition

end ExprLang
