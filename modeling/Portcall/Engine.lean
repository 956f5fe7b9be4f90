import Portcall.Seams

/-! What one run shares between its probes. -/
namespace Portcall

/-- The path a chain was captured over. -/
inductive Via where
  | direct
  | proxy
  deriving DecidableEq, Repr

def Via.text : Via → String
  | .direct => "direct"
  | .proxy => "proxy"

inductive AnchorClass where
  | «private»
  | indeterminate
  deriving DecidableEq, Repr

def AnchorClass.text : AnchorClass → String
  | .private => "private"
  | .indeterminate => "indeterminate"

/-- A trust anchor seen terminating a chain that was not judged public. -/
structure ObservedAnchor where
  /-- DER of the anchor the peer presented, `none` when it presented none. -/
  der : Option (List UInt8)
  canonicalIssuer : String
  canonicalSubject : String
  host : String
  via : Via
  anchorClass : AnchorClass
  deriving DecidableEq, Repr

end Portcall
