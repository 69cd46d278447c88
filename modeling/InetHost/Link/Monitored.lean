import InetHost.Link.Device

/-! A device that notes the calls that are made to it, the latest first. Its host cannot tell. -/

namespace InetHost.Link

inductive Call
  | transmit (frame : Bytes) (result : Except NetError Unit)
  | receive (result : Except NetError Bytes)

structure Monitored (δ : Type) where
  device : δ
  calls : List Call

instance {δ : Type} [Device δ] : Device (Monitored δ) where
  name d := Device.name d.device
  transmit frame d :=
    let (result, device) := Device.transmit frame d.device
    (result, ⟨device, .transmit frame result :: d.calls⟩)
  receive capacity d :=
    let (result, device) := Device.receive capacity d.device
    (result, ⟨device, .receive result :: d.calls⟩)
  stats d := Device.stats d.device
  length_le_of_receive h := Device.length_le_of_receive h

end InetHost.Link
