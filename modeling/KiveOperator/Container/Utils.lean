import KiveOperator.Api.Types

/-!
# Container identifiers and device numbers

`internal/controller/container/utils.go`: the split of a container id into runtime and id, and
the translation of the device number that `stat` reports into the one the kernel uses.
-/

namespace Kive

/-- Cut a text at the first occurrence of a (non-empty) separator. -/
def splitFirst (sep : List Char) : List Char → Option (List Char × List Char)
  | [] => none
  | c :: cs =>
    if sep.isPrefixOf (c :: cs) then some ([], (c :: cs).drop sep.length)
    else (splitFirst sep cs).map fun p => (c :: p.1, p.2)

/-- `strings.SplitN(input, "://", 2)` and the test that it gave two parts. -/
def splitContainerRuntimeID (input : String) : Except String (String × String) :=
  match splitFirst "://".toList input.toList with
  | some (runtime, id) => .ok (String.ofList runtime, String.ofList id)
  | none => .error "Error parsing containerID"

/-- The id part of a container id; the caller ignores the error, and the id is then empty. -/
def containerIDPart (input : String) : String :=
  match splitContainerRuntimeID input with
  | .ok (_, id) => id
  | .error _ => ""

/-- The device number of user space, minor bits around the major ones, in the kernel's layout. -/
def userDevToKernelDev (userdev : UInt64) : UInt32 :=
  let major := ((userdev &&& (0x00000000000fff00 : UInt64)) >>> (8 : UInt64)) |||
    ((userdev &&& (0xfffff00000000000 : UInt64)) >>> (32 : UInt64))
  let minor := (userdev &&& (0x00000000000000ff : UInt64)) |||
    ((userdev &&& (0x00000ffffff00000 : UInt64)) >>> (12 : UInt64))
  ((major <<< (20 : UInt64)) ||| minor).toUInt32

end Kive
