import Mathlib.Tactic.Choose
import Formula.Proofs.Parsing.RoundTrip
import Formula.Script

/-! The script of a tree is grouped as the tree is: where every operator in it is also one of
expressions, it is parsed to the tree again. -/

namespace Formula

open Lexer
open Content (mark separated enclosed accessMark)

/-- Constants that a script writes as a source does. -/
def Value.IsRecoverable : Value → Prop
  | null | bool _ => True
  | int n => 0 ≤ n.toInt
  | string s => ∀ c ∈ s.toList, c ∉ ['\x00', '\t', '\n', '\x0b', '\x0c', '\r']
  | float _ | array _ | object _ | function _ => False

namespace Expr

def isAccess : Expr → Bool
  | access _ _ _ _ _ => true
  | _ => false

/-- Keys that stand in a hash literal as they are. -/
def IsLiteralKey : Expr → Prop
  | const (.string s) false => (Value.string s).IsRecoverable
  | const (.int n) false => (Value.int n).IsRecoverable
  | _ => False

/-- Trees whose script is an expression. A function that is registered may have a script of its own,
and to the left of `??` the steps of a chain change. -/
inductive IsRecoverable (functions : Registry) : Expr → Prop
  | const {value} : value.IsRecoverable → IsRecoverable functions (const value false)
  | name {n} : IsFreeName n → IsRecoverable functions (name n)
  | unary {op e} : op ≠ .not → IsRecoverable functions e → IsRecoverable functions (unary op e)
  | binary {op l r} : op.script?.isSome = true → IsRecoverable functions l →
      IsRecoverable functions r → IsRecoverable functions (binary op l r)
  | conditional {c y n} : IsRecoverable functions c → IsRecoverable functions y →
      IsRecoverable functions n → IsRecoverable functions (conditional c y n)
  | coalesce {l r} : l.isAccess = false → IsRecoverable functions l → IsRecoverable functions r →
      IsRecoverable functions (coalesce l r)
  | property (nullSafe) {o member} : IsRecoverable functions o → o.isConst = false →
      Parsing.isIdentifier member = true →
      IsRecoverable functions (access .property nullSafe o (const (.string member) true) [])
  | method (nullSafe) {o member as} : IsRecoverable functions o → o.isConst = false →
      Parsing.isIdentifier member = true → (∀ a ∈ as, IsRecoverable functions a) →
      IsRecoverable functions (access .method nullSafe o (const (.string member) true) as)
  | index (nullSafe) {o k} : IsRecoverable functions o → o.isConst = false →
      IsRecoverable functions k → IsRecoverable functions (access .index nullSafe o k [])
  | list {es} : (∀ e ∈ es, IsRecoverable functions e) → IsRecoverable functions (list es)
  | hash {es} : (∀ p ∈ es, p.1.IsLiteralKey) → (∀ p ∈ es, IsRecoverable functions p.2) →
      IsRecoverable functions (hash es)
  | call {f as} : IsFreeName f → functions.get? f = none →
      (∀ a ∈ as, IsRecoverable functions a) → IsRecoverable functions (call f as)

end Expr

/-- No sign of equality stands first, which would go on with an operator before it. -/
def Starts (text : List Char) : Prop := ∃ c cs, text = c :: cs ∧ normalize c ≠ '='

theorem Starts.append {text : List Char} (h : Starts text) (rest : List Char) :
    Starts (text ++ rest) := by
  obtain ⟨c, cs, rfl, hc⟩ := h
  exact ⟨c, cs ++ rest, rfl, hc⟩

namespace Script

theorem ofExpr_true {e : Expr} (functions : Registry) (h : e.isAccess = false) :
    ofExpr functions true e = ofExpr functions false e := by
  obtain heq | ⟨_, _, _, _, _, rfl⟩ := ofExpr_true_or_access functions e
  · exact heq
  · cases h

open Parsing hiding closing

/-- `cs` are read from the script of a tree, and the tree is read from `cs`. -/
structure Recovers (functions : Registry) (scope : Scope) (cs : List Content) (e : Expr) : Prop where
  scans : Scans e.isConst (ofExpr functions false e).toList cs
  starts : Starts (ofExpr functions false e).toList
  begins : Begins cs
  operand : Operand scope cs e
  object : e.isConst = false → Object scope cs e

variable {functions : Registry} {scope : Scope} {cs ls ks rs ys ns : List Content}
  {e l r c y n o k : Expr} {es as : List Expr} {text : List Char} {content : Expr → List Content}

theorem Recovers.full (h : Recovers functions scope cs e) : Full scope cs e := h.operand.full

theorem Recovers.scans_object (h : Recovers functions scope cs e) (hconst : e.isConst = false) :
    Scans false (ofExpr functions false e).toList cs := hconst ▸ h.scans

theorem recovers_of_object (hconst : e.isConst = false)
    (hscans : Scans false (ofExpr functions false e).toList cs)
    (hstarts : Starts (ofExpr functions false e).toList) (hbegins : Begins cs)
    (hobject : Object scope cs e) : Recovers functions scope cs e where
  scans := hconst.symm ▸ hscans
  starts := hstarts
  begins := hbegins
  operand := hobject.operand
  object := fun _ => hobject

/-- An access step behind an object. -/
theorem Recovers.step {o' : Expr} (ho : Recovers functions scope cs o) (hconst : o'.isConst = false)
    (hscans : Scans false ((ofExpr functions false o).toList ++ text) (cs ++ ls))
    (htext : (ofExpr functions false o').toList = (ofExpr functions false o).toList ++ text)
    (hobject : Object scope (cs ++ ls) o') : Recovers functions scope (cs ++ ls) o' :=
  recovers_of_object hconst (htext ▸ hscans) (htext ▸ ho.starts.append text) (ho.begins.append ls)
    hobject

end Script
end Formula
