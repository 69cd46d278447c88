import InetHost.Bytes
import InetHost.Error

/-! Host names on the wire: labels with their lengths in front, ended by a zero byte. Inside a
message a name may also end with a two-byte pointer to the rest of it. -/

namespace InetHost.Dns

def maxName : Nat := 253

def maxLabel : Nat := 63

namespace Name

def dot : UInt8 := 46

def text (name : String) : Bytes :=
  let bs := name.toUTF8.toList
  if bs.getLast? = some dot then bs.dropLast else bs

/-- Writes labels from `pos` on; one that is refused leaves those in front of it written. -/
def writeLabels (buffer : Bytes) (pos : Nat) :
    List Bytes → Except Fault (Except NetError Nat × Bytes)
  | [] => do
    let buffer ← buffer.overwriteAt pos [0]
    .ok (.ok (pos + 1), buffer)
  | label :: rest =>
    if label = [] ∨ maxLabel < label.length then .ok (.error .invalidArgument, buffer)
    else if buffer.length ≤ pos + 1 + label.length then .ok (.error .messageTooLong, buffer)
    else do
      let buffer ← buffer.overwriteAt pos [UInt8.ofNat label.length]
      let buffer ← buffer.overwriteAt (pos + 1) label
      writeLabels buffer (pos + 1 + label.length) rest

def write (name : String) (buffer : Bytes) : Except Fault (Except NetError Nat × Bytes) :=
  let text := text name
  if text = [] ∨ maxName < text.length then .ok (.error .invalidArgument, buffer)
  else writeLabels buffer 0 (text.splitOn dot)

def length? : Bytes → Option Nat
  | [] => none
  | length :: rest =>
    if length = 0 then some 1
    else if 0xC0 ≤ length then if rest = [] then none else some 2
    else (length? (rest.drop length.toNat)).map fun more => 1 + length.toNat + more
  termination_by bs => bs.length
  decreasing_by simp only [List.length_drop, List.length_cons]; omega

def skip? (message : Bytes) (pos : Nat) : Option Nat :=
  (length? (message.drop pos)).map fun length => pos + length

def rest? (bs : Bytes) : Option Bytes := (length? bs).map fun length => bs.drop length

end Name

end InetHost.Dns
