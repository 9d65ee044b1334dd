import Formula.Proofs.Expr.Plain

/-! What becomes of a tree whose source is read back. The source of `??` has parentheses around each
side but none around the whole, so that an operator, a condition or an access step next to it takes
hold of one side alone. -/

namespace Formula

/-- A source in one piece, or one that a `??` parts outside all parentheses. -/
inductive Grouping
  | closed (e : Expr)
  | parted (left fallback : Expr)

namespace Grouping

def tree : Grouping → Expr
  | closed e => e
  | parted left fallback => .coalesce left fallback

/-- What stands in front takes hold of the first piece. -/
def mapFirst (f : Expr → Expr) : Grouping → Grouping
  | closed e => closed (f e)
  | parted left fallback => parted (f left) fallback

/-- What stands behind takes hold of the last piece. -/
def mapLast (f : Expr → Expr) : Grouping → Grouping
  | closed e => closed (f e)
  | parted left fallback => parted left (f fallback)

end Grouping

namespace Expr

def isCoalesce : Expr → Bool
  | coalesce _ _ => true
  | _ => false

mutual

def grouping : Expr → Grouping
  | e@(const _ _) | e@(name _) | e@(coalescedName _) => .closed e
  | unary op operand => .closed (operand.grouping.mapFirst (unary op)).tree
  | binary op left right =>
    .closed (left.grouping.mapLast fun l => (right.grouping.mapFirst (binary op l)).tree).tree
  | conditional condition yes no =>
    .closed (condition.grouping.mapLast fun c =>
      conditional c yes.grouping.tree no.grouping.tree).tree
  | coalesce left fallback => .parted left.grouping.tree fallback.grouping.tree
  | access kind nullSafe object key arguments =>
    object.grouping.mapLast fun o =>
      access kind nullSafe o key.grouping.tree (regroupedAll arguments)
  | list items => .closed (list (regroupedAll items))
  | hash entries => .closed (hash (regroupedEntries entries))
  | call function arguments => .closed (call function (regroupedAll arguments))

def regroupedAll : List Expr → List Expr
  | [] => []
  | e :: es => e.grouping.tree :: regroupedAll es

def regroupedEntries : List (Expr × Expr) → List (Expr × Expr)
  | [] => []
  | (key, value) :: entries => (key.grouping.tree, value.grouping.tree) :: regroupedEntries entries

end

/-- The tree that the source of a tree is read as. -/
def regrouped (e : Expr) : Expr := e.grouping.tree

mutual

/-- No `??` stands next to an operator, before `?` or before an access step. -/
def isDelimited : Expr → Bool
  | const _ _ | name _ | coalescedName _ => true
  | unary _ operand => !operand.isCoalesce && operand.isDelimited
  | binary _ left right =>
    (!left.isCoalesce && left.isDelimited) && (!right.isCoalesce && right.isDelimited)
  | conditional condition yes no =>
    (!condition.isCoalesce && condition.isDelimited) && (yes.isDelimited && no.isDelimited)
  | coalesce left fallback => left.isDelimited && fallback.isDelimited
  | access _ _ object key arguments =>
    (!object.isCoalesce && object.isDelimited) && (key.isDelimited && allDelimited arguments)
  | list items => allDelimited items
  | hash entries => entriesDelimited entries
  | call _ arguments => allDelimited arguments

def allDelimited : List Expr → Bool
  | [] => true
  | e :: es => e.isDelimited && allDelimited es

def entriesDelimited : List (Expr × Expr) → Bool
  | [] => true
  | (key, value) :: entries => (key.isDelimited && value.isDelimited) && entriesDelimited entries

end

theorem isCoalesce_of_closed {e e' : Expr} (h : e.grouping = .closed e') : e.isCoalesce = false := by
  cases e with
  | coalesce l r => simp [grouping] at h
  | _ => rfl

theorem grouping_eq_closed_iff {e : Expr} (h : e.grouping.tree = e ↔ e.isDelimited = true) :
    e.grouping = .closed e ↔ (!e.isCoalesce && e.isDelimited) = true := by
  rw [Bool.and_eq_true, Bool.not_eq_true', ← h]
  -- A parted source is read as a `??`, which `e` is not.
  cases hgrouping : e.grouping with
  | closed e' => simp [Grouping.tree, isCoalesce_of_closed hgrouping]
  | parted l r =>
    have hne (hcoalesce : e.isCoalesce = false) : coalesce l r ≠ e := by
      rintro rfl
      simp [isCoalesce] at hcoalesce
    simpa [Grouping.tree] using hne

mutual

theorem tree_grouping_eq_iff : ∀ e : Expr, e.grouping.tree = e ↔ e.isDelimited = true
  | const _ _ | name _ | coalescedName _ => by simp [grouping, Grouping.tree, isDelimited]
  | unary op e => by
    rw [isDelimited, ← grouping_eq_closed_iff (tree_grouping_eq_iff e), grouping]
    cases e.grouping <;> simp [Grouping.tree, Grouping.mapFirst]
  | binary op l r => by
    rw [isDelimited, Bool.and_eq_true, ← grouping_eq_closed_iff (tree_grouping_eq_iff l),
      ← grouping_eq_closed_iff (tree_grouping_eq_iff r), grouping]
    cases l.grouping <;> cases r.grouping <;> simp [Grouping.tree, Grouping.mapFirst, Grouping.mapLast]
  | conditional c y n => by
    rw [isDelimited, Bool.and_eq_true, ← grouping_eq_closed_iff (tree_grouping_eq_iff c),
      Bool.and_eq_true, ← tree_grouping_eq_iff y, ← tree_grouping_eq_iff n, grouping]
    cases c.grouping <;> simp [Grouping.tree, Grouping.mapLast]
  | coalesce l r => by
    rw [isDelimited, Bool.and_eq_true, ← tree_grouping_eq_iff l, ← tree_grouping_eq_iff r, grouping]
    simp [Grouping.tree]
  | access kind nullSafe o k as => by
    rw [isDelimited, Bool.and_eq_true, ← grouping_eq_closed_iff (tree_grouping_eq_iff o),
      Bool.and_eq_true, ← tree_grouping_eq_iff k, ← regroupedAll_eq_iff as, grouping]
    cases o.grouping <;> simp [Grouping.tree, Grouping.mapLast]
  | list es => by
    rw [isDelimited, ← regroupedAll_eq_iff es, grouping]
    simp [Grouping.tree]
  | hash es => by
    rw [isDelimited, ← regroupedEntries_eq_iff es, grouping]
    simp [Grouping.tree]
  | call f as => by
    rw [isDelimited, ← regroupedAll_eq_iff as, grouping]
    simp [Grouping.tree]

theorem regroupedAll_eq_iff : ∀ es : List Expr, regroupedAll es = es ↔ allDelimited es = true
  | [] => by simp [regroupedAll, allDelimited]
  | e :: es => by
    rw [regroupedAll, allDelimited, Bool.and_eq_true, ← tree_grouping_eq_iff e, ← regroupedAll_eq_iff es,
      List.cons.injEq]

theorem regroupedEntries_eq_iff :
    ∀ es : List (Expr × Expr), regroupedEntries es = es ↔ entriesDelimited es = true
  | [] => by simp [regroupedEntries, entriesDelimited]
  | (k, v) :: es => by
    rw [regroupedEntries, entriesDelimited, Bool.and_eq_true, Bool.and_eq_true, ← tree_grouping_eq_iff k,
      ← tree_grouping_eq_iff v, ← regroupedEntries_eq_iff es, List.cons.injEq, Prod.mk.injEq]

end

theorem regroupedAll_eq_map (es : List Expr) : regroupedAll es = es.map regrouped := by
  induction es with
  | nil => simp [regroupedAll]
  | cons e es ih => simp [regroupedAll, regrouped, ih]

theorem regroupedEntries_eq_map (es : List (Expr × Expr)) :
    regroupedEntries es = es.map fun p => (p.1.regrouped, p.2.regrouped) := by
  induction es with
  | nil => simp [regroupedEntries]
  | cons p es ih => simp [regroupedEntries, regrouped, ih]

end Expr
end Formula
