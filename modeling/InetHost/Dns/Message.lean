import InetHost.Dns.Header
import InetHost.Dns.Name
import InetHost.Ipv4.Address

/-! Name service messages: the query for the address of a host, and the first address in the
answers of a response. -/

namespace InetHost.Dns

def port : UInt16 := 53

def maxMessage : Nat := 512

def typeAddress : UInt16 := 1

def classInternet : UInt16 := 1

def recursionDesired : UInt16 := 0x0100

def query (id : UInt16) (name : String) (capacity : Nat) :
    Except Fault (Except NetError Bytes) :=
  if capacity < headerLength then .ok (.error .messageTooLong)
  else do
    match ← Name.write name (List.replicate (capacity - headerLength) 0) with
    | (.error cause, _) => .ok (.error cause)
    | (.ok length, area) =>
      let front := Header.encode ⟨id, recursionDesired, 1, 0, 0, 0⟩ ++ area.take length
      if capacity < headerLength + length + 4 then .ok (.error .messageTooLong)
      else .ok (.ok (front ++ Bytes.word16 typeAddress ++ Bytes.word16 classInternet))

def skipQuestions? : Nat → Bytes → Option Bytes
  | 0, bs => some bs
  | count + 1, bs => (Name.rest? bs).bind fun rest => skipQuestions? count (rest.drop 4)

structure Record where
  recordType : UInt16
  data : Bytes
  deriving DecidableEq, Repr

namespace Record

def read? (bs : Bytes) : Option (Record × Bytes) := do
  let bs ← Name.rest? bs
  let (recordType, bs) ← Bytes.read16? bs
  let (_, bs) ← Bytes.read16? bs
  let (_, bs) ← Bytes.read32? bs
  let (length, bs) ← Bytes.read16? bs
  let rest ← Bytes.skip? length.toNat bs
  some (⟨recordType, bs.take length.toNat⟩, rest)

def address? (r : Record) : Option Ipv4.Address :=
  if r.recordType = typeAddress then
    match r.data with
    | [a, b, c, d] => some (Bytes.join32 a b c d)
    | _ => none
  else none

end Record

def firstAddress? : Nat → Bytes → Option Ipv4.Address
  | 0, _ => none
  | count + 1, bs =>
    match Record.read? bs with
    | none => none
    | some (record, rest) =>
      match record.address? with
      | some ip => some ip
      | none => firstAddress? count rest

def address (id : UInt16) (response : Bytes) : Except NetError Ipv4.Address :=
  match Header.decode? response with
  | none => .error .dnsNoResponse
  | some header =>
    if header.id ≠ id then .error .dnsIdMismatch
    else if !header.isResponse then .error .dnsNotResponse
    else if header.answers = 0 then .error .dnsNoAnswers
    else
      match (skipQuestions? header.questions.toNat (response.drop headerLength)).bind
          (firstAddress? header.answers.toNat) with
      | some ip => .ok ip
      | none => .error .dnsNoARecord

end InetHost.Dns
