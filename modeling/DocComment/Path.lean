import DocComment.Text.Lines

/-! Paths. A path is kept as it was written, and two spellings count as the same path when their
components agree: repeated slashes, a slash at the end and a dot after the first component do not
matter. Paths are ordered component by component. -/
namespace DocComment

structure Path where
  text : Text
deriving DecidableEq, Repr

namespace Path

inductive Component where
  | root
  | current
  | parent
  | normal (name : Text)
deriving DecidableEq, Repr

/-- The codes that order components: the root, a dot, two dots, then names by their characters. -/
def Component.key : Component → List Nat
  | .root => [0]
  | .current => [1]
  | .parent => [2]
  | .normal name => 3 :: name.map Char.toNat

def Component.ofSegment (segment : Text) : Component :=
  if segment = ['.'] then .current
  else if segment = ['.', '.'] then .parent
  else .normal segment

def isAbsolute (p : Path) : Bool := p.text.head? = some '/'

/-- The non-empty pieces between slashes. -/
def segments (p : Path) : List Text := (p.text.cut '/').filter fun segment => segment ≠ []

/-- A relative path keeps a dot as its first component only, an absolute path keeps none. -/
def components (p : Path) : List Component :=
  let parts := p.segments.map Component.ofSegment
  if p.isAbsolute then .root :: parts.filter (· ≠ .current)
  else
    match parts with
    | [] => []
    | first :: rest => first :: rest.filter (· ≠ .current)

def order (p q : Path) : Ordering :=
  compare (p.components.map Component.key) (q.components.map Component.key)

def Same (p q : Path) : Prop := p.components = q.components

instance (p q : Path) : Decidable (p.Same q) := inferInstanceAs (Decidable (_ = _))

def hasTrailingSlash (p : Path) : Bool := p.text.getLast? = some '/'

/-- A path of 4096 bytes or more cannot be followed. -/
def isTooLong (p : Path) : Bool := 4096 ≤ (String.ofList p.text).utf8ByteSize

def join (p : Path) (name : Text) : Path :=
  if p.text = [] || p.hasTrailingSlash then ⟨p.text ++ name⟩ else ⟨p.text ++ '/' :: name⟩

/-- A name up to its last dot, unless that dot is its first character. -/
def stemOfName (name : Text) : Text :=
  let before := ((name.reverse.dropWhile (· ≠ '.')).drop 1).reverse
  if before = [] then name else before

def stem (p : Path) : Text :=
  match p.components.getLast? with
  | some (.normal name) => stemOfName name
  | _ => "comment".toList

example : (Path.mk "./a//b/./c.d/".toList).components =
    [.current, .normal ['a'], .normal ['b'], .normal "c.d".toList] := by decide

example : stemOfName ".hid.x".toList = ".hid".toList ∧ stemOfName ".hid".toList = ".hid".toList := by
  decide

private theorem codes_injective {s t : Text} (h : s.map Char.toNat = t.map Char.toNat) : s = t :=
  (List.map_inj_right fun _ _ same => Char.ext (UInt32.toNat_inj.mp same)).mp h

theorem Component.key_injective {a b : Component} (h : a.key = b.key) : a = b := by
  cases a <;> cases b <;> simp_all [Component.key]
  exact codes_injective h

/-- The order tells two paths apart exactly when they are different paths. -/
theorem order_eq_iff {p q : Path} : p.order q = .eq ↔ p.Same q := by
  rw [order, Std.LawfulEqCmp.compare_eq_iff_eq]
  exact List.map_inj_right fun _ _ => Component.key_injective

theorem order_trans {p q r : Path} (hpq : p.order q = .lt) (hqr : q.order r = .lt) :
    p.order r = .lt := by
  unfold order at *
  exact Std.TransCmp.lt_trans hpq hqr

theorem order_swap (p q : Path) : (p.order q).swap = q.order p := by
  unfold order
  exact Std.OrientedCmp.eq_swap.symm

end Path
end DocComment
