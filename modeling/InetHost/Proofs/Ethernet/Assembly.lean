import InetHost.Ipv4.Header

/-! The steps by which a frame is put together. What fits goes behind the content, and the steps after
it go on from there; what does not fit is refused, the content stays, and no step after it is taken. -/

namespace InetHost.Ethernet.Assembly

variable {b : FrameBuffer} {bs : Bytes}

theorem run_append_eq (b : FrameBuffer) (bs : Bytes) : (append bs).run.run b =
    match b.append? bs with
    | some b' => (.ok (), b')
    | none => (.error .messageTooLong, b) := by
  have hg : (get : Assembly FrameBuffer).run.run b = pure (.ok b, b) := rfl
  rw [append, ExceptT.run_bind, StateT.run_bind, hg, pure_bind]
  dsimp only
  cases b.append? bs with
  | some b' => rfl
  | none => rfl

theorem run_append (h : b.length + bs.length ≤ maxFrame) :
    (append bs).run.run b = (.ok (), ⟨b.data ++ bs⟩) := by
  have hb : b.append? bs = some ⟨b.data ++ bs⟩ := if_pos h
  rw [run_append_eq, hb]

theorem run_append_of_lt (h : maxFrame < b.length + bs.length) :
    (append bs).run.run b = (.error .messageTooLong, b) := by
  have hb : b.append? bs = none := if_neg (Nat.not_le.2 h)
  rw [run_append_eq, hb]

theorem run_append_bind (steps : Assembly Unit) (h : b.length + bs.length ≤ maxFrame) :
    (do append bs; steps : Assembly Unit).run.run b = steps.run.run ⟨b.data ++ bs⟩ := by
  rw [ExceptT.run_bind, StateT.run_bind, run_append h]
  rfl

theorem run_append_bind_of_lt (steps : Assembly Unit) (h : maxFrame < b.length + bs.length) :
    (do append bs; steps : Assembly Unit).run.run b = (.error .messageTooLong, b) := by
  rw [ExceptT.run_bind, StateT.run_bind, run_append_of_lt h]
  rfl

section Packet

variable (dest source : Mac) (header : Ipv4.Header) (payload : Bytes)

theorem run_appendPacket_of_lt (h : maxFrame < b.length + 14) :
    (appendPacket dest source header payload).run.run b = (.error .messageTooLong, b) := by
  rw [appendPacket, appendHeader, run_append_bind_of_lt _ h]

theorem run_appendPacket_of_le (h : b.length + 14 ≤ maxFrame) :
    (appendPacket dest source header payload).run.run b =
      (do append header.encode; append payload : Assembly Unit).run.run
        ⟨b.data ++ Header.encode ⟨dest, source, EtherType.ipv4.toWord⟩⟩ := by
  rw [appendPacket, appendHeader, appendIpv4, run_append_bind _ h]

theorem run_appendPacket (h : b.length + 34 ≤ maxFrame) :
    (appendPacket dest source header payload).run.run b = (append payload).run.run
      ⟨b.data ++ Header.encode ⟨dest, source, EtherType.ipv4.toWord⟩ ++ header.encode⟩ := by
  have h₁ : b.length + 14 ≤ maxFrame := by omega
  have h₂ : (⟨b.data ++ Header.encode ⟨dest, source, EtherType.ipv4.toWord⟩⟩ : FrameBuffer).length +
      header.encode.length ≤ maxFrame := by
    rw [FrameBuffer.length, List.length_append]
    exact h
  rw [run_appendPacket_of_le _ _ _ _ h₁, run_append_bind _ h₂]

end Packet

end InetHost.Ethernet.Assembly
