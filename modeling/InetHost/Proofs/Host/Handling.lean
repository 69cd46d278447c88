import InetHost.Proofs.Host.Thrift

/-! What the handling of a frame costs. It is paid for by what the frame has at stake and by the time
of one wait, whatever is handled meanwhile; the offer of a connection is paid for by the socket that
listened as well. So a poll needs no means of its own, and polls are nested no deeper than there are
credits about. -/

namespace InetHost

open World

variable {δ : Type} [Link.Device δ] {ration : Link.Ration δ} {limit : Nat} {p : Poller δ}
  {b : Budget} {r s : Nat} {w : World δ}

theorem World.Funded.learn (h : w.Funded ration b r (s + b.span)) (ip : Ipv4.Address) (mac : Mac) :
    (Arp.learn ip mac w).Funded ration b r s := by
  have hpace : w.Funded ration b r (s + b.pace) :=
    h.mono (Nat.le_refl _) (Nat.add_le_add_left b.pace_le_span s)
  exact hpace.readClock.of_tcp_eq rfl rfl rfl

theorem World.Funded.noteReply (h : w.Funded ration b r (s + b.span)) (header : Icmp.Header)
    (sent : Option UInt32) (source : Ipv4.Address) :
    (Icmp.noteReply header sent source w).Funded ration b r s := by
  have hpace : w.Funded ration b r (s + b.pace) :=
    h.mono (Nat.le_refl _) (Nat.add_le_add_left b.pace_le_span s)
  have htrip : (Icmp.roundTrip sent w).2.Funded ration b r s := by
    rcases Icmp.roundTrip_snd sent w with hs | hs
    · rw [hs]
      exact h.mono (Nat.le_refl _) (Nat.le_add_right _ _)
    · rw [hs]
      exact hpace.readClock
  exact (htrip.record _).of_tcp_eq rfl rfl rfl

theorem Arp.handle_finishes (data : Bytes)
    (h : w.Funded ration b (r + stake data) (s + b.span)) :
    Net.Finishes (handle data) w fun _ w' => w'.Funded ration b r s := by
  rw [handle, Net.finishes_bind, Net.finishes_check_of_eq (Packet.parse_eq_ok data)]
  unfold stake at h
  cases hd : Packet.decode? data with
  | none => exact h.mono (Nat.le_add_right _ _) (Nat.le_add_right _ _)
  | some packet =>
    rw [hd] at h
    simp only [Net.finishes_bind, Net.finishes_modify, Net.finishes_get]
    have hlearned := (h.learn packet.senderIp packet.senderMac).record
      (.arpLearned packet.senderIp packet.senderMac)
    split
    · rename_i hasked
      dsimp only at hlearned
      rw [if_pos hasked.1] at hlearned
      rw [Net.finishes_bind, Attempt.finishes_run]
      refine (sendReply_finishes packet hlearned).mono fun result w₁ h₁ => ?_
      cases result with
      | ok _ => exact h₁
      | error e => exact h₁.record _
    · exact hlearned.mono (Nat.le_add_right _ _) (Nat.le_refl _)

theorem Icmp.sendReply_finishes (hp : p.Thrifty ration limit) (hb : b.credits ≤ limit)
    (dest : Ipv4.Address) (message : Bytes) (h : w.Funded ration b (r + 3) (s + b.span)) :
    Net.Finishes (sendReply p dest message) w fun _ w' => w'.Funded ration b r s := by
  rw [sendReply]
  split
  · exact h.drop
  · rename_i hl
    have hl : message.length ≤ maxReply := Nat.le_of_not_lt hl
    have hask : w.Funded ration b (r + 1 + 2) (s + b.span) := h
    rw [Net.finishes_bind, Attempt.finishes_run]
    refine (Arp.resolve_finishes_of_le hp hb dest (by decide) hask).mono fun result w₁ h₁ => ?_
    cases result with
    | error e => exact h₁.mono (Nat.le_add_right _ _) (Nat.le_refl _)
    | ok mac =>
      dsimp only
      rw [Net.finishes_bind, Net.finishes_check]
      intro copy hcopy
      rw [Bytes.within_eq_ok hl] at hcopy
      obtain rfl := Except.ok.inj hcopy
      rw [Net.finishes_bind, Net.finishes_check]
      intro answer ha
      have hshort : answer.length ≤ Ipv4.maxPayload := length_of_echoReply hl ha
      have hstake : Ipv4.Protocol.icmp.stake answer ≤ 0 := Nat.le_of_eq (stake_echoReply ha)
      have hid : (Ipv4.takeId w₁).2.Funded ration b (r + (1 + 0)) s := h₁.of_tcp_eq rfl rfl rfl
      rw [Net.finishes_bind, Net.finishes_modifyGet, Net.finishes_bind, Attempt.finishes_run]
      refine (Ipv4.transmit_finishes mac dest .icmp _ hshort hstake hid).mono
        fun result w₂ h₂ => ?_
      cases result with
      | ok _ => exact h₂
      | error e => exact h₂.record _

theorem Icmp.handle_finishes (hp : p.Thrifty ration limit) (hb : b.credits ≤ limit)
    (message : Bytes) (source : Ipv4.Address)
    (h : w.Funded ration b (r + stake message) (s + b.span)) :
    Net.Finishes (handle p message source) w fun _ w' => w'.Funded ration b r s := by
  have hrest : w.Funded ration b r s := h.drop
  rw [handle, Net.finishes_bind, Net.finishes_check_of_eq (Header.parse_eq_ok message)]
  unfold stake at h
  cases hd : Header.decode? message with
  | none => exact hrest
  | some header =>
    rw [hd] at h
    dsimp only at h ⊢
    split
    · exact hrest
    · split
      · rw [Net.finishes_bind, Net.finishes_check]
        intro sent _
        rw [Net.finishes_modify]
        exact (h.mono (Nat.le_add_right _ _) (Nat.le_refl _)).noteReply header sent source
      · split
        · rename_i hrequest
          rw [if_pos hrequest] at h
          exact sendReply_finishes hp hb source message h
        · exact hrest

theorem Udp.handle_finishes (message : Bytes) (source : Ipv4.Address)
    (h : w.Funded ration b r s) :
    Net.Finishes (handle message source) w fun _ w' => w'.Funded ration b r s := by
  rw [handle, Net.finishes_bind, Net.finishes_check]
  intro found _
  cases found with
  | none => exact h
  | some header =>
    dsimp only
    split
    · exact h
    · rw [Net.finishes_bind, Net.finishes_check]
      intro payload _
      rw [Net.finishes_bind, Net.finishes_get]
      split
      · exact h
      · rw [Net.finishes_bind, Net.finishes_check]
        intro front _
        rw [Net.finishes_bind, Net.finishes_check]
        intro kept _
        exact h.of_tcp_eq rfl rfl rfl

section Tcp

open Tcp

variable {slot : Slot} {header : Header} {message : Bytes} {source : Ipv4.Address}

theorem Tcp.sendSegment_finishes (hp : p.Thrifty ration limit) (hb : b.credits ≤ limit)
    (slot : Slot) (flags : Flags) (data : Bytes) {staked : Nat}
    (hs : stake ((socketAt slot w).segment w.interface.ip flags data) ≤ staked)
    (h : w.Funded ration b (r + (3 + staked)) (s + b.span)) :
    Attempt.Finishes (sendSegment p slot flags data) w fun _ w' => w'.Funded ration b r s := by
  rw [sendSegment, Attempt.finishes_bind, Attempt.finishes_get]
  dsimp only
  rw [Attempt.finishes_bind, Attempt.finishes_check]
  intro segment hw
  rw [Bytes.eq_of_within hw]
  exact Ipv4.send_finishes hp hb _ .tcp hs h

theorem Tcp.sendAck_finishes (hp : p.Thrifty ration limit) (hb : b.credits ≤ limit)
    (slot : Slot) (h : w.Funded ration b (r + 3) (s + b.span)) :
    Net.Finishes (sendAck p slot) w fun _ w' => w'.Funded ration b r s := by
  have hs := Nat.le_of_eq (stake_segment_ack (socketAt slot w) w.interface.ip)
  rw [sendAck, Net.finishes_bind, Attempt.finishes_run]
  refine (sendSegment_finishes hp hb slot _ [] hs h).mono fun result w₁ h₁ => ?_
  cases result with
  | ok _ => exact h₁
  | error e => exact h₁.record _

theorem Tcp.acceptConnection_finishes (hp : p.Thrifty ration limit) (hb : b.credits ≤ limit)
    (slot : Slot) (header : Header) (source : Ipv4.Address)
    (hl : (socketAt slot w).state = .listen) (h : w.Funded ration b (r + 3) (s + b.span)) :
    Net.Finishes (acceptConnection p slot header source) w fun _ w' => w'.Funded ration b r s := by
  rw [acceptConnection, Net.finishes_bind, Net.finishes_modify, Net.finishes_bind,
    Net.finishes_modify, Net.finishes_bind, Attempt.finishes_run]
  let w₀ := updateSocket slot (fun s =>
    { s with remoteIp := source, remotePort := header.source, ack := header.seq + 1 }) w
  have hl₀ : (socketAt slot w₀).state = .listen := by
    rw [socketAt_updateSocket_self]
    exact hl
  have h₀ : w₀.Funded ration b (r + 3) (s + b.span) := h.updateSocket id
  have hset : setState slot .synReceived w₀ = updateSocket slot
      (fun s => { s with state := .synReceived })
        (w₀.record (.stateChanged slot (socketAt slot w₀).state .synReceived)) :=
    setState_of_ne (by simp [hl₀])
  have hfewer : (setState slot .synReceived w₀).listeners < w₀.listeners := by
    apply listeners_lt hl₀
    · rw [socketAt_setState_self]
      intro hs
      cases hs
    · intro i hi
      rw [socketAt_setState] at hi
      split at hi
      · cases hi
      · exact hi
  have h₁ : (setState slot .synReceived w₀).Funded ration b (r + (3 + 3)) (s + b.span) :=
    h₀.unlisten (by rw [hset]; rfl) (by rw [hset]; rfl) hfewer
  refine (sendSegment_finishes hp hb slot _ [] (stake_le _) h₁).mono fun result w₂ h₂ => ?_
  cases result with
  | ok _ => exact h₂.updateSocket id
  | error e => exact (h₂.record _).updateSocket id

theorem World.Funded.keepData (h : w.Funded ration b r s) (slot : Slot)
    (buffer : Ring bufferSize) (length dropped : Nat) :
    (keepData slot buffer length dropped w).Funded ration b r s := by
  unfold Tcp.keepData
  have hkept : (Tcp.updateSocket slot (fun s => { s with buffer }) w).Funded ration b r s :=
    h.updateSocket id
  by_cases hd : dropped = 0
  · simp only [hd, if_true]
    exact hkept.updateSocket id
  · simp only [hd, if_false]
    exact (hkept.record _).updateSocket id

theorem Tcp.acceptData_finishes (hp : p.Thrifty ration limit) (hb : b.credits ≤ limit)
    (slot : Slot) (source : Ipv4.Address) (message : Bytes) {payload : Bytes}
    (hr : w.Funded ration b r s) (h : payload ≠ [] → w.Funded ration b (r + 3) (s + b.span)) :
    Net.Finishes (acceptData p slot source message payload) w
      fun _ w' => w'.Funded ration b r s := by
  rw [acceptData]
  split
  · exact hr
  · rename_i hne
    rw [Net.finishes_bind, Net.finishes_get, Net.finishes_bind, Net.finishes_check]
    rintro ⟨buffer, stored⟩ _
    dsimp only
    rw [Net.finishes_bind, Net.finishes_check]
    intro dropped _
    rw [Net.finishes_bind, Net.finishes_modify, Net.finishes_bind, Net.finishes_modify]
    exact sendAck_finishes hp hb slot (((h hne).record _).keepData slot buffer _ _)

theorem Tcp.finish_finishes (hp : p.Thrifty ration limit) (hb : b.credits ≤ limit)
    (slot : Slot) (header : Header) (h : w.Funded ration b (r + 3) (s + b.span)) :
    Net.Finishes (finish p slot header) w fun _ w' => w'.Funded ration b r s := by
  rw [finish, Net.finishes_bind, Net.finishes_modify, Net.finishes_bind]
  have hack : (setAck slot (header.seq + 1) w).Funded ration b (r + 3) (s + b.span) :=
    h.updateSocket id
  exact (sendAck_finishes hp hb slot hack).mono fun _ _ h₁ => h₁.setState (by decide)

theorem Tcp.acceptFin_finishes (hp : p.Thrifty ration limit) (hb : b.credits ≤ limit)
    (slot : Slot) (header : Header) (h : w.Funded ration b (r + 3) (s + b.span)) :
    Net.Finishes (acceptFin p slot header) w fun _ w' => w'.Funded ration b r s := by
  rw [acceptFin, Net.finishes_bind, Net.finishes_modify, Net.finishes_bind, Net.finishes_modify]
  have hack : (setAck slot (header.seq + 1) w).Funded ration b (r + 3) (s + b.span) :=
    h.updateSocket id
  exact sendAck_finishes hp hb slot (hack.setState (by decide))

theorem Tcp.advance_finishes (hp : p.Thrifty ration limit) (hb : b.credits ≤ limit)
    (slot : Slot) (source : Ipv4.Address) (hd : Header.decode? message = some header)
    (h : w.Funded ration b (r + stake message) (s + b.span)) :
    Net.Finishes (advance p slot (socketAt slot w).state header message source) w
      fun _ w' => w'.Funded ration b r s := by
  have hrest : w.Funded ration b r s := h.drop
  -- A segment is answered only if it takes up sequence numbers, and then that is at stake.
  have hasked (hs : header.flags.syn = true ∨ header.flags.fin = true ∨
      header.dataOffset < message.length) : w.Funded ration b (r + 3) (s + b.span) := by
    unfold stake at h
    rw [hd] at h
    dsimp only at h
    rwa [if_pos hs] at h
  unfold advance
  cases hs : (socketAt slot w).state with
  | listen =>
    dsimp only
    split
    · rename_i hsyn
      exact acceptConnection_finishes hp hb slot header source hs (hasked (.inl hsyn))
    · exact hrest
  | synSent =>
    dsimp only
    split
    · rename_i hflags
      rw [Net.finishes_bind, Net.finishes_modify, Net.finishes_bind, Net.finishes_modify]
      have hack : (setAck slot (header.seq + 1) w).Funded ration b (r + 3) (s + b.span) :=
        (hasked (.inl hflags.1)).updateSocket id
      exact sendAck_finishes hp hb slot (hack.setState (by decide))
    · exact hrest
  | synReceived =>
    dsimp only
    split
    · exact hrest.setState (by decide)
    · exact hrest
  | established =>
    dsimp only
    split
    · rename_i hfin
      exact acceptFin_finishes hp hb slot header (hasked (.inr (.inl hfin)))
    · split
      · rw [Net.finishes_bind, Net.finishes_check]
        intro payload hslice
        refine acceptData_finishes hp hb slot source message hrest fun hne => hasked (.inr (.inr ?_))
        refine Nat.lt_of_not_le fun hle => hne ?_
        rw [Bytes.eq_of_slice hslice, List.drop_eq_nil_of_le hle, List.take_nil]
      · exact hrest
  | finWait1 =>
    dsimp only
    split
    · rw [Net.finishes_bind, Net.finishes_modify]
      split
      · rename_i hfin
        have hnext : (setState slot .finWait2 w).Funded ration b (r + 3) (s + b.span) :=
          (hasked (.inr (.inl hfin))).setState (by decide)
        exact finish_finishes hp hb slot header hnext
      · exact hrest.setState (by decide)
    · split
      · rename_i hfin
        exact finish_finishes hp hb slot header (hasked (.inr (.inl hfin)))
      · exact hrest
  | finWait2 =>
    dsimp only
    split
    · rename_i hfin
      exact finish_finishes hp hb slot header (hasked (.inr (.inl hfin)))
    · exact hrest
  | lastAck =>
    dsimp only
    split
    · exact hrest.release
    · exact hrest
  | closed | closeWait | closing | timeWait => exact hrest

theorem World.Funded.handleReset (h : w.Funded ration b r s) (slot : Slot) (state : State)
    (source : Ipv4.Address) : (handleReset slot state source w).Funded ration b r s := by
  unfold Tcp.handleReset
  split
  · exact h
  · exact ((h.record _).updateSocket id).setState (by decide)

theorem Tcp.handle_finishes (hp : p.Thrifty ration limit) (hb : b.credits ≤ limit)
    (message : Bytes) (source : Ipv4.Address)
    (h : w.Funded ration b (r + stake message) (s + b.span)) :
    Net.Finishes (handle p message source) w fun _ w' => w'.Funded ration b r s := by
  have hrest : w.Funded ration b r s := h.drop
  rw [handle, Net.finishes_bind, Net.finishes_check_of_eq (Header.parse_eq_ok message)]
  cases hd : Header.decode? message with
  | none => exact hrest
  | some header =>
    simp only [Net.finishes_bind, Net.finishes_get]
    split
    · exact hrest.record _
    · simp only [Net.finishes_bind, Net.finishes_get]
      split
      · exact hrest.handleReset _ _ source
      · exact advance_finishes hp hb _ source hd h

end Tcp

theorem Ipv4.handle_finishes (hp : p.Thrifty ration limit) (hb : b.credits ≤ limit)
    (data : Bytes) (h : w.Funded ration b (r + stake data) (s + b.span)) :
    Net.Finishes (handle p data) w fun _ w' => w'.Funded ration b r s := by
  have hrest : w.Funded ration b r s := h.drop
  rw [handle, Net.finishes_bind, Net.finishes_check_of_eq (Header.parse_eq_ok data)]
  unfold stake at h
  cases hd : Header.decode? data with
  | none => exact hrest
  | some header =>
    rw [hd] at h
    dsimp only at h ⊢
    rw [Net.finishes_bind, Net.finishes_check]
    intro bytes _
    cases Checksum.verifies bytes with
    | false => exact hrest.record _
    | true =>
      rw [if_neg (by decide)]
      split
      · exact hrest
      · rw [Net.finishes_bind, Net.finishes_get]
        split
        · exact hrest
        · rw [Net.finishes_bind, Net.finishes_check]
          intro message hslice
          rw [← Bytes.eq_of_slice hslice] at h
          cases hprotocol : Protocol.ofNumber? header.protocol with
          | none => exact hrest
          | some protocol =>
            rw [hprotocol] at h
            cases protocol with
            | icmp => exact Icmp.handle_finishes hp hb message _ h
            | tcp => exact Tcp.handle_finishes hp hb message _ h
            | udp => exact Udp.handle_finishes message _ hrest

namespace Net

theorem handleFrame_finishes (hp : p.Thrifty ration limit) (hb : b.credits ≤ limit)
    (frame : Bytes) (h : w.Funded ration b (r + Ethernet.stake frame) (s + b.span)) :
    Finishes (handleFrame p frame) w fun _ w' => w'.Funded ration b r s := by
  have hrest : w.Funded ration b r s := h.drop
  rw [handleFrame, finishes_bind, finishes_check_of_eq (Ethernet.Header.parse_eq_ok frame)]
  unfold Ethernet.stake at h
  cases hd : Ethernet.Header.decode? frame with
  | none => exact hrest
  | some header =>
    rw [hd] at h
    dsimp only at h ⊢
    rw [finishes_bind, finishes_check]
    intro payload hslice
    have hpayload : payload = frame.drop Ethernet.headerLength := by
      rw [Bytes.eq_of_slice hslice, ← List.length_drop, List.take_length]
    rw [← hpayload] at h
    cases htype : header.payloadType? with
    | none => exact hrest
    | some etherType =>
      rw [htype] at h
      cases etherType with
      | arp => exact Arp.handle_finishes payload h
      | ipv4 => exact Ipv4.handle_finishes hp hb payload h

theorem drain_finishes {handle : Bytes → Net δ Unit}
    (hh : ∀ {credits ms : Nat} {frame : Bytes} {w : World δ}, 1 ≤ b.credits →
      w.Funded ration b.less (credits + Ethernet.stake frame) (ms + b.span) →
      Finishes (handle frame) w fun _ w' => w'.Funded ration b.less credits ms)
    (budget : Nat) (h : w.Funded ration b r s) :
    Finishes (drain handle budget) w fun _ w' => w'.Funded ration b r s := by
  induction budget generalizing w with
  | zero => exact h
  | succ budget ih =>
    have htaken := h.takeFrame
    rw [drain, finishes_bind, finishes_modifyGet]
    split
    · exact htaken.record _
    · exact htaken
    · rename_i frame hne hr
      obtain ⟨hone, hframe⟩ := h.takeFrame_of_ok hr hne
      rw [finishes_bind]
      refine (hh hone hframe).mono fun _ w₁ h₁ => ?_
      rw [finishes_bind]
      exact ih h₁.of_less

theorem poll_finishes (fuel : Nat) (hb : b.credits + 1003 ≤ fuel) (h : w.Funded ration b r s) :
    Finishes (poll fuel) w fun _ w' => w'.Funded ration b r s := by
  -- One level of polls goes with one unit of fuel, and with at least one credit.
  induction fuel generalizing w b r s with
  | zero => omega
  | succ fuel ih =>
    refine drain_finishes (fun {credits ms frame w₁} hone h₁ => ?_) _ h
    have hless : b.less.credits = b.credits - 1 := rfl
    have hp : (⟨fuel, poll fuel⟩ : Poller δ).Thrifty ration b.less.credits :=
      { rounds_ge := by
          change 1002 ≤ fuel
          omega
        poll := fun hb' h' => ih (by omega) h' }
    exact handleFrame_finishes hp (Nat.le_refl _) frame h₁

end Net

/-- With fuel enough, polls cost nothing that has not been paid. -/
theorem Poller.thrifty_ofFuel (ration : Link.Ration δ) {fuel limit : Nat}
    (h : limit + 1003 ≤ fuel) : (ofFuel fuel : Poller δ).Thrifty ration limit where
  rounds_ge := by
    change 1002 ≤ fuel
    omega
  poll hb hw := Net.poll_finishes fuel (by omega) hw

end InetHost
