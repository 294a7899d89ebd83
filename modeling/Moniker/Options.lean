import Moniker.Defect
import Moniker.Text.Lowercase

/-!
# Options

What a caller decides about one call to resolve keys: how names compare, how deeply keys may
nest, and whether the call has been cancelled. Cancellation belongs to the call and is not
part of a stored form.
-/

namespace Moniker

/-- The options of one call, with their defaults. -/
structure ResolveOptions where
  ignoreCase : Bool := false
  maxDepth : UInt64 := 64
  /-- Whether the caller has asked to abandon the call. -/
  cancelled : Bool := false
  deriving Repr, DecidableEq

/-- A settings value, as far as options can be made from it. -/
inductive Setting where
  | truth (value : Bool)
  | integer (value : Int)
  /-- A value that fits no option. -/
  | other
  deriving Repr, DecidableEq

/-- The two ways in which settings state options. -/
inductive Settings where
  /-- By name. A later entry under the same name replaces an earlier one. -/
  | named (entries : List (String × Setting))
  /-- By place: case first, then depth. -/
  | listed (entries : List Setting)
  deriving Repr, DecidableEq

namespace ResolveOptions

/-- Whether two names are the same under these options. -/
def namesMatch (o : ResolveOptions) (a b : String) : Bool :=
  if o.ignoreCase then Text.lower a == Text.lower b else a == b

/-- The options with one setting applied. Names that stand for no option are ignored. -/
def set (o : ResolveOptions) (name : String) (value : Setting) : Option ResolveOptions :=
  match name, value with
  | "ignore_case", .truth b => some { o with ignoreCase := b }
  | "ignore_case", _ => none
  | "max_depth", .integer n =>
    if 0 ≤ n ∧ n < UInt64.size then some { o with maxDepth := UInt64.ofNat n.toNat } else none
  | "max_depth", _ => none
  | _, _ => some o

/-- The options that settings describe. What is not set has its default. -/
def ofSettings? : Settings → Option ResolveOptions
  | .named entries => entries.foldlM (fun o entry => o.set entry.1 entry.2) {}
  | .listed entries =>
    if entries.length ≤ 2 then
      (["ignore_case", "max_depth"].zip entries).foldlM (fun o entry => o.set entry.1 entry.2) {}
    else none

def format : Wire.Format ResolveOptions where
  write o := Wire.Format.bool.write o.ignoreCase ++ Wire.Format.uint64.write o.maxDepth
  read := return { ignoreCase := ← Wire.Format.bool.read, maxDepth := ← Wire.Format.uint64.read }

def toBytes (o : ResolveOptions) : List UInt8 := format.write o

def ofBytes (octets : List UInt8) : Except Defect ResolveOptions :=
  (format.decode octets).mapError .encoding

end ResolveOptions
end Moniker
