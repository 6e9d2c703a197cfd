import HostLisp.Fault
import HostLisp.Number.Arithmetic
import HostLisp.Value.Equality
import HostLisp.Value.TypeName

/-!
# Arithmetic of values

Whole numbers are added, subtracted and divided exactly. If one of two numbers is a float, both are
taken as floats.
-/

namespace HostLisp.Value

open Number (Binary64)

/-- Two values that an operation takes as numbers. -/
inductive Operands
  | whole (m n : Int)
  | binary (x y : Binary64)

/-- A whole number as a float, unless it is too large for one. -/
def toBinary (n : Int) : Except Fault Binary64 :=
  match Binary64.ofInt n with
  | .infinite _ => .error (.host "OverflowError" "int too large to convert to float")
  | x => .ok x

def operands (operator : String) (a b : Value) : Except Fault Operands :=
  match a, b, a.wholeNumber?, b.wholeNumber? with
  | .float x, .float y, _, _ => .ok (.binary x y)
  | .float x, _, _, some n => do .ok (.binary x (← toBinary n))
  | _, .float y, some m, _ => do .ok (.binary (← toBinary m) y)
  | _, _, some m, some n => .ok (.whole m n)
  | _, _, _, _ =>
    let left := TypeName.nameOf a
    let right := TypeName.nameOf b
    .error (.typeError s!"unsupported operand type(s) for {operator}: '{left}' and '{right}'")

def add (a b : Value) : Except Fault Value := do
  match ← operands "+" a b with
  | .whole m n => .ok (.int (m + n))
  | .binary x y => .ok (.float (x.add y))

/-- The sum of several values, which is zero if there are none. -/
def sum (values : List Value) : Except Fault Value := values.foldlM add (.int 0)

def subtract (a b : Value) : Except Fault Value := do
  match ← operands "-" a b with
  | .whole m n => .ok (.int (m - n))
  | .binary x y => .ok (.float (x.subtract y))

/-- The quotient of two values, rounded down. -/
def floorDivide (a b : Value) : Except Fault Value := do
  match ← operands "//" a b with
  | .whole m n => if n = 0 then .error .divisionByZero else .ok (.int (Int.fdiv m n))
  | .binary x y =>
    if y.isZero then .error (.host "ZeroDivisionError" "float floor division by zero")
    else .ok (.float (x.floorDivide y))

end HostLisp.Value
