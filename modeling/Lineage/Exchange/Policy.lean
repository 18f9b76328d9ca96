import Lineage.Json.Typed
import Lineage.Verification

/-!
# The exchange form of policies

A policy is written by its name.  An object with the name as its only field, which holds null, is read as
well.
-/

namespace Lineage.Policy

def names : List String :=
  ["collect", "fail_fast"]

def toName : Policy → String
  | .collect => "collect"
  | .failFast => "fail_fast"

def toJson (p : Policy) : Json :=
  .string p.toName

def ofName (name : String) : Typed Policy :=
  match name with
  | "collect" => .ok .collect
  | "fail_fast" => .ok .failFast
  | other => .error (.unknownVariant other names)

def shape : Json.Shape :=
  .choice

/-- What stands beside the name of a policy that is written as a field. -/
def content : Document → Typed Unit
  | .null => .ok ()
  | d => d.not "unit"

/-- Reads a policy from a value. -/
def ofValue : Document → Typed Policy
  | .string s => ofName s
  | .object [(name, d)] _ => do
    let p ← ofName name
    content d
    return p
  | .object _ _ => .error (.wrongValue "map" "map with a single key")
  | d => d.not "string or map"

/-- Reads a policy from a text, which is not looked at beyond the first thing that is no part of a policy. -/
def ofText : Document → Typed Policy
  | .string s => ofName s
  | .object ((name, d) :: rest) fault => do
    let p ← ofName name
    content d
    match rest, fault with
    | [], none => return p
    | [], some cause => .error (.broken (if cause = .endInObject then .endInObject else .expectedValue))
    | _ :: _, _ => .error (.broken .expectedValue)
  | .object [] fault =>
    match fault with
    | some cause => .error (.broken (if cause = .endInObject then .endInValue else cause))
    | none => .error (.broken .expectedValue)
  | .broken cause => .error (.broken cause)
  | _ => .error (.broken .expectedValue)

def ofDocument : Source → Document → Typed Policy
  | .value, d => ofValue d
  | .text, d => ofText d

end Lineage.Policy
