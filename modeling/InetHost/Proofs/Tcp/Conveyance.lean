import InetHost.Proofs.Tcp.Handshake

/-! What goes on between the two ends of an established connection of a host with itself. The bytes that
were sent from one end have been read at the other, wait in its buffer, or are under way, in this order; and
the numbers of the two ends differ by just the bytes that are under way. -/

namespace InetHost

open Tcp Link

structure Tcp.Saying where
  speaker : Bool
  data : Bytes

structure Tcp.Transcript where
  sent : Bool → Bytes
  read : Bool → Bytes

section Sayings

def Tcp.underWay (e : Bool) (said : List Saying) : Bytes :=
  said.flatMap fun s => if s.speaker = e then s.data else []

/-- Data are acknowledged, and an acknowledgement is not. -/
def Tcp.load (said : List Saying) : Nat := (said.map fun s => if s.data = [] then 1 else 2).sum

variable {e e' : Bool} {data : Bytes} {said : List Saying}

theorem Tcp.underWay_cons (s : Saying) :
    underWay e (s :: said) = (if s.speaker = e then s.data else []) ++ underWay e said :=
  List.flatMap_cons ..

theorem Tcp.underWay_concat_self : underWay e (said ++ [⟨e, data⟩]) = underWay e said ++ data := by
  simp [underWay]

theorem Tcp.underWay_concat_of_ne (h : e ≠ e') :
    underWay e' (said ++ [⟨e, data⟩]) = underWay e' said := by
  simp [underWay, h]

theorem Tcp.load_cons (s : Saying) :
    load (s :: said) = (if s.data = [] then 1 else 2) + load said := by
  simp [load]

theorem Tcp.load_pos (s : Saying) (said : List Saying) : 0 < load (s :: said) := by
  rw [load_cons]
  split
  · exact Nat.add_pos_left Nat.one_pos _
  · exact Nat.add_pos_left Nat.two_pos _

theorem Tcp.load_concat_nil : load (said ++ [⟨e, []⟩]) = load said + 1 := by
  simp [load]

theorem Tcp.load_le (said : List Saying) : load said ≤ 2 * said.length := by
  induction said with
  | nil => exact Nat.le_refl _
  | cons s said ih =>
    have hone : (if s.data = [] then 1 else 2) ≤ 2 := by split <;> decide
    rw [load_cons, List.length_cons]
    omega

def Tcp.Transcript.blank : Transcript := ⟨fun _ => [], fun _ => []⟩

def Tcp.Transcript.say (t : Transcript) (e : Bool) (data : Bytes) : Transcript :=
  { t with sent := fun e' => if e = e' then t.sent e' ++ data else t.sent e' }

def Tcp.Transcript.hear (t : Transcript) (e : Bool) (data : Bytes) : Transcript :=
  { t with read := fun e' => if e = e' then t.read e' ++ data else t.read e' }

theorem Tcp.Transcript.say_nil (t : Transcript) (e : Bool) : t.say e [] = t := by
  have hsent : (fun e' => if e = e' then t.sent e' ++ [] else t.sent e') = t.sent := by
    funext e'
    rw [List.append_nil, ite_self]
  rw [say, hsent]

theorem Tcp.Transcript.length_sent_le (t : Transcript) (e e' : Bool) (data : Bytes) :
    (t.sent e').length ≤ ((t.say e data).sent e').length := by
  unfold say
  dsimp only
  split
  · rw [List.length_append]
    exact Nat.le_add_right _ _
  · exact Nat.le_refl _

end Sayings

namespace Line

variable {line : Line} {said : List Saying} {losses : Bool → Nat} {t : Transcript} {e : Bool}

def Tells (line : Line) (s : Saying) (letter : Letter) : Prop :=
  ∃ header : Header, letter = .segment header s.data ∧
    header.source = (line.ends s.speaker).localPort ∧
    header.dest = (line.ends !s.speaker).localPort ∧
    header.flags.ack = true ∧ header.flags.rst = false ∧ header.flags.fin = false

/-- No buffer has overflowed before more was sent than it can hold. -/
structure Conveys (line : Line) (losses : Bool → Nat) (t : Transcript) (said : List Saying) : Prop
    extends line.Joined where
  counted (e : Bool) :
    (line.ends e).seq = (line.ends !e).ack + UInt32.ofNat (underWay e said).length
  losses_le (e : Bool) : losses e ≤ line.lost e
  stream (e : Bool) : line.lost e = losses e →
    t.read e ++ (line.ends e).buffer.toList ++ underWay (!e) said = t.sent !e
  overfull (e : Bool) : line.lost e ≠ losses e → bufferSize < (t.sent !e).length

theorem tells_put {s : Socket} (hp : s.localPort = (line.ends e).localPort) :
    (line.put e s).Tells = line.Tells := by
  funext saying letter
  unfold Tells
  rw [proj_ends_put Socket.localPort hp, proj_ends_put Socket.localPort hp]

theorem Joined.put (h : line.Joined) {s : Socket} (hv : s.buffer.Valid)
    (hs : s = { line.ends e with seq := s.seq, ack := s.ack, buffer := s.buffer }) :
    (line.put e s).Joined := by
  have hinUse : s.inUse = (line.ends e).inUse := by rw [hs]
  have hstate : s.state = (line.ends e).state := by rw [hs]
  have hlocal : s.localPort = (line.ends e).localPort := by rw [hs]
  have hport : s.remotePort = (line.ends e).remotePort := by rw [hs]
  have hip : s.remoteIp = (line.ends e).remoteIp := by rw [hs]
  refine ⟨h.known, fun e' => ?_, fun e' => ?_, fun e' => ?_, fun e' => ?_, fun e' => ?_⟩
  · rw [proj_ends_put Socket.inUse hinUse]
    exact h.inUse e'
  · rw [proj_ends_put Socket.state hstate]
    exact h.established e'
  · rw [proj_ends_put Socket.remoteIp hip]
    exact h.remoteIp e'
  · rw [proj_ends_put Socket.remotePort hport, proj_ends_put Socket.localPort hlocal]
    exact h.remotePort e'
  · by_cases he : e = e'
    · subst he
      rwa [ends_put_self]
    · rw [ends_put_of_ne he]
      exact h.valid e'

theorem Joined.tells (h : line.Joined) (e : Bool) (data : Bytes) {flags : Flags}
    (ha : flags.ack = true) (hr : flags.rst = false) (hf : flags.fin = false) :
    line.Tells ⟨e, data⟩ (.segment ((line.ends e).header flags) data) :=
  ⟨_, rfl, rfl, h.remotePort e, ha, hr, hf⟩

theorem Joined.conveys (h : line.Joined) (hm : line.Mirrored)
    (hu : ∀ e, (line.ends e).buffer.toList = []) :
    line.Conveys line.lost .blank [] where
  toJoined := h
  counted e := (hm e).trans (UInt32.add_zero _).symm
  losses_le _ := Nat.le_refl _
  stream e _ := by
    rw [hu]
    rfl
  overfull _ hl := absurd rfl hl

theorem Conveys.say (h : line.Conveys losses t said) (e : Bool) (data : Bytes) :
    (line.put e { line.ends e with
      seq := (line.ends e).seq + UInt32.ofNat data.length }).Conveys losses (t.say e data)
        (said ++ [⟨e, data⟩]) := by
  let s : Socket := { line.ends e with seq := (line.ends e).seq + UInt32.ofNat data.length }
  have hack (e' : Bool) : ((line.put e s).ends e').ack = (line.ends e').ack :=
    proj_ends_put Socket.ack (by rfl) e'
  have hbuffer (e' : Bool) : ((line.put e s).ends e').buffer = (line.ends e').buffer :=
    proj_ends_put Socket.buffer (by rfl) e'
  refine ⟨h.toJoined.put (h.valid e) rfl, fun e' => ?_, h.losses_le, fun e' hl => ?_,
    fun e' hl => Nat.lt_of_lt_of_le (h.overfull e' hl) (t.length_sent_le ..)⟩
  · rw [hack]
    by_cases he : e = e'
    · subst he
      rw [ends_put_self, underWay_concat_self, List.length_append, UInt32.ofNat_add,
        ← UInt32.add_assoc, ← h.counted]
    · rw [ends_put_of_ne he, underWay_concat_of_ne he]
      exact h.counted e'
  · have hstream := h.stream e' hl
    rw [hbuffer]
    by_cases he : e = !e'
    · subst he
      have hsent : (t.say (!e') data).sent (!e') = t.sent (!e') ++ data := if_pos rfl
      rw [hsent, underWay_concat_self, ← List.append_assoc, ← hstream]
      rfl
    · have hsent : (t.say e data).sent (!e') = t.sent (!e') := if_neg he
      rw [hsent, underWay_concat_of_ne he]
      exact hstream

theorem Conveys.hear (h : line.Conveys losses t said) {e : Bool} {buffer : Ring bufferSize}
    {data : Bytes} {capacity : Nat} (hp : (line.ends e).buffer.pop capacity = .ok (buffer, data)) :
    (line.put e { line.ends e with buffer }).Conveys losses (t.hear e data) said := by
  let s : Socket := { line.ends e with buffer }
  have hseq (e' : Bool) : ((line.put e s).ends e').seq = (line.ends e').seq :=
    proj_ends_put Socket.seq (by rfl) e'
  have hack (e' : Bool) : ((line.put e s).ends e').ack = (line.ends e').ack :=
    proj_ends_put Socket.ack (by rfl) e'
  have hv : buffer.Valid := (h.valid e).of_pop hp
  refine ⟨h.toJoined.put hv rfl, fun e' => ?_, h.losses_le, fun e' hl => ?_, h.overfull⟩
  · rw [hseq, hack]
    exact h.counted e'
  · have hstream := h.stream e' hl
    by_cases he : e = e'
    · subst he
      have hread : (t.hear e data).read e = t.read e ++ data := if_pos rfl
      rw [(h.valid e).toList_pop hp, ← List.append_assoc] at hstream
      rw [hread, ends_put_self]
      exact hstream
    · have hread : (t.hear e data).read e' = t.read e' := if_neg he
      rw [hread, ends_put_of_ne he]
      exact hstream

theorem Conveys.acknowledge (h : line.Conveys losses t said) (e : Bool) :
    line.Conveys losses t (said ++ [⟨e, []⟩]) := by
  have hsaid := h.say e []
  have hseq : (line.ends e).seq + UInt32.ofNat ([] : Bytes).length = (line.ends e).seq :=
    UInt32.add_zero _
  rw [hseq, put_ends, Transcript.say_nil] at hsaid
  exact hsaid

theorem Conveys.of_nil (h : line.Conveys losses t (⟨e, []⟩ :: said)) :
    line.Conveys losses t said := by
  have hsame (e' : Bool) : underWay e' (⟨e, []⟩ :: said) = underWay e' said := by
    rw [underWay_cons, ite_self]
    rfl
  refine ⟨h.toJoined, fun e' => ?_, h.losses_le, fun e' hl => ?_, h.overfull⟩
  · rw [← hsame]
    exact h.counted e'
  · rw [← hsame]
    exact h.stream e' hl

theorem Conveys.of_letters (h : line.Conveys losses t said) (letters : List Letter) :
    { line with letters }.Conveys losses t said :=
  ⟨⟨h.known, h.inUse, h.established, h.remoteIp, h.remotePort, h.valid⟩, h.counted, h.losses_le,
    h.stream, h.overfull⟩

def keep (line : Line) (e : Bool) (buffer : Ring bufferSize) (length dropped : Nat) : Line :=
  { line.put e { line.ends e with buffer, ack := (line.ends e).ack + UInt32.ofNat length } with
    lost := fun e' => if e = e' ∧ dropped ≠ 0 then line.lost e' + 1 else line.lost e' }

theorem tells_keep (line : Line) (e : Bool) (buffer : Ring bufferSize) (length dropped : Nat) :
    (line.keep e buffer length dropped).Tells = line.Tells :=
  tells_put (by rfl)

theorem le_lost_keep (line : Line) (e e' : Bool) (buffer : Ring bufferSize) (length dropped : Nat) :
    line.lost e' ≤ (line.keep e buffer length dropped).lost e' := by
  unfold keep
  dsimp only
  split
  · exact Nat.le_succ _
  · exact Nat.le_refl _

theorem eq_zero_of_lost_keep {buffer : Ring bufferSize} {length dropped : Nat}
    (h : (line.keep e buffer length dropped).lost e = line.lost e) : dropped = 0 := by
  by_contra hd
  have hmore : (line.keep e buffer length dropped).lost e = line.lost e + 1 := if_pos ⟨rfl, hd⟩
  exact absurd (hmore.symm.trans h) (Nat.succ_ne_self _)

theorem Conveys.lt_of_lost_keep {data : Bytes} {buffer : Ring bufferSize} {stored : Nat}
    (h : line.Conveys losses t (⟨!e, data⟩ :: said))
    (hp : (line.ends e).buffer.push data = .ok (buffer, stored)) {e' : Bool}
    (hl : (line.keep e buffer data.length (data.length - stored)).lost e' ≠ losses e') :
    bufferSize < (t.sent !e').length := by
  by_cases hlost : line.lost e' = losses e'
  · have hnew : e = e' ∧ data.length - stored ≠ 0 := by
      by_contra hn
      exact hl ((if_neg hn).trans hlost)
    obtain ⟨rfl, hd⟩ := hnew
    have hstored := ((h.valid e).toList_push hp).1
    have hstream := congrArg List.length (h.stream e hlost)
    rw [underWay_cons, if_pos rfl, List.length_append, List.length_append, List.length_append,
      Ring.length_toList] at hstream
    dsimp only at hstream
    omega
  · exact h.overfull e' hlost

theorem Conveys.keep {data : Bytes} {buffer : Ring bufferSize} {stored : Nat}
    (h : line.Conveys losses t (⟨!e, data⟩ :: said))
    (hp : (line.ends e).buffer.push data = .ok (buffer, stored)) :
    (line.keep e buffer data.length (data.length - stored)).Conveys losses t said := by
  let s : Socket :=
    { line.ends e with buffer, ack := (line.ends e).ack + UInt32.ofNat data.length }
  let kept := line.keep e buffer data.length (data.length - stored)
  have hseq (e' : Bool) : (kept.ends e').seq = (line.ends e').seq :=
    proj_ends_put Socket.seq (by rfl) e'
  have hself : kept.ends e = s := ends_put_self line e s
  have hother {e' : Bool} (he : e ≠ e') : kept.ends e' = line.ends e' := ends_put_of_ne he line s
  obtain ⟨hstored, hcontents⟩ := (h.valid e).toList_push hp
  have hjoined : (line.put e s).Joined := h.toJoined.put ((h.valid e).of_push hp) rfl
  refine ⟨⟨h.known, hjoined.inUse, hjoined.established, hjoined.remoteIp, hjoined.remotePort,
    hjoined.valid⟩, fun e' => ?_, fun e' => ?_, fun e' hl => ?_, fun e' hl => h.lt_of_lost_keep hp hl⟩
  · have hcounted := h.counted e'
    rw [underWay_cons] at hcounted
    rw [hseq, hcounted]
    by_cases he : e = !e'
    · subst he
      rw [hself, if_pos (Bool.not_not e'), List.length_append, UInt32.ofNat_add, ← UInt32.add_assoc]
    · rw [hother he, if_neg fun hn => he (Bool.not_eq_eq_eq_not.1 hn)]
      rfl
  · exact Nat.le_trans (h.losses_le e') (le_lost_keep ..)
  · have hkept : line.lost e' ≤ kept.lost e' := le_lost_keep ..
    -- No loss in the end means no loss before, so that the stream was whole until now.
    have hlost : line.lost e' = losses e' := Nat.le_antisymm (hkept.trans_eq hl) (h.losses_le e')
    have hstream := h.stream e' hlost
    rw [underWay_cons] at hstream
    by_cases he : e = e'
    · subst he
      have hall : data.length - stored = 0 := eq_zero_of_lost_keep (hl.trans hlost.symm)
      have hwhole : data.take stored = data :=
        List.take_of_length_le (Nat.sub_eq_zero_iff_le.1 hall)
      rw [hself, ← hstream, if_pos rfl, hcontents, hwhole]
      simp only [List.append_assoc]
    · rw [hother he, ← hstream, if_neg fun hn => he (Bool.not_inj hn)]
      rfl

end Line

section Reception

variable {w : World Loopback} {line : Line} {p : Poller Loopback} {slots : Bool → Slot}
  {losses : Bool → Nat} {t : Transcript} {said : List Saying} {e : Bool}

theorem World.Shows.recordDropped (h : w.Shows line) (e : Bool) (count : Nat) :
    (w.record (.bytesDropped (line.slots e) count)).Shows
      { line with lost := fun e' => if e = e' then line.lost e' + 1 else line.lost e' } := by
  refine { h with lost := fun e' => ?_ }
  have hlost := h.lost e'
  unfold overflows at hlost ⊢
  rw [World.journal_record, List.countP_cons, hlost]
  dsimp only [Event.isOverflow]
  by_cases he : e = e'
  · subst he
    simp
  · have hne : line.slots e ≠ line.slots e' := fun hs => he (h.slots_inj hs)
    simp [he, Fin.val_inj, hne]

theorem World.Shows.keepData (h : w.Shows line) (e : Bool) (buffer : Ring bufferSize)
    (length dropped : Nat) :
    (Tcp.keepData (line.slots e) buffer length dropped w).Shows
      (line.keep e buffer length dropped) := by
  let filled := line.put e { line.ends e with buffer }
  have hfilled : (Tcp.updateSocket (line.slots e) (fun s => { s with buffer }) w).Shows filled :=
    h.updateSocket rfl rfl
  have hends : (filled.put e { filled.ends e with
      ack := (filled.ends e).ack + UInt32.ofNat length }).ends =
        (line.keep e buffer length dropped).ends := by
    rw [Line.put_put, Line.ends_put_self]
    rfl
  unfold Tcp.keepData
  by_cases hd : dropped = 0
  · have hlost : filled.lost = (line.keep e buffer length dropped).lost := by
      funext e'
      exact (if_neg fun hn => hn.2 hd).symm
    have hacked := hfilled.updateSocket (e := e)
      (f := fun s => { s with ack := s.ack + UInt32.ofNat length }) rfl rfl
    simp only [hd, if_true]
    rw [hd] at hends hlost
    refine Eq.mp (congrArg (World.Shows _) ?_) hacked
    exact Line.ext rfl rfl rfl hends rfl hlost rfl
  · have hlost : (fun e' => if e = e' then filled.lost e' + 1 else filled.lost e') =
        (line.keep e buffer length dropped).lost := by
      funext e'
      simp [Line.keep, filled, Line.put, hd]
    have hacked := (hfilled.recordDropped e dropped).updateSocket (e := e)
      (f := fun s => { s with ack := s.ack + UInt32.ofNat length }) rfl rfl
    simp only [hd, if_false]
    refine Eq.mp (congrArg (World.Shows _) ?_) hacked
    exact Line.ext rfl rfl rfl hends rfl hlost rfl

def World.Talks (w : World Loopback) (slots : Bool → Slot) (losses : Bool → Nat) (t : Transcript)
    (said : List Saying) : Prop :=
  ∃ line : Line, w.Shows line ∧ line.slots = slots ∧ List.Forall₂ line.Tells said line.letters ∧
    line.Conveys losses t said

theorem Tcp.sendAck_talks (h : w.Talks slots losses t said) (e : Bool) :
    Net.Finishes (sendAck p (slots e)) w fun _ w' =>
      ∃ said', load said' ≤ load said + 1 ∧ w'.Talks slots losses t said' := by
  obtain ⟨line, hshows, rfl, hletters, hconveys⟩ := h
  refine (sendAck_known hshows hconveys.known (hconveys.remoteIp e)).mono fun _ w' hw => ?_
  obtain ⟨result, ⟨-, -, hw⟩ | ⟨-, -, hw⟩⟩ := hw
  · let answer : Saying := ⟨e, []⟩
    have hanswered : line.Conveys losses t (said ++ [answer]) := hconveys.acknowledge e
    refine ⟨said ++ [answer], Nat.le_of_eq load_concat_nil, _, hw, rfl, ?_, hanswered.of_letters _⟩
    exact List.rel_append hletters (.cons (hconveys.tells e [] rfl rfl rfl) .nil)
  · exact ⟨said, Nat.le_add_right _ _, line, hw, rfl, hletters, hconveys⟩

theorem Tcp.acceptData_talks {source : Ipv4.Address} {message data : Bytes} (h : w.Shows line)
    (hl : List.Forall₂ line.Tells said line.letters)
    (hc : line.Conveys losses t (⟨!e, data⟩ :: said)) :
    Net.Finishes (acceptData p (line.slots e) source message data) w fun _ w' =>
      ∃ said', load said' < load (⟨!e, data⟩ :: said) ∧ w'.Talks line.slots losses t said' := by
  rw [acceptData, load_cons]
  dsimp only
  by_cases hd : data = []
  · subst hd
    rw [if_pos rfl, if_pos rfl]
    exact ⟨said, Nat.lt_add_of_pos_left Nat.one_pos, line, h, rfl, hl, hc.of_nil⟩
  · rw [if_neg hd, if_neg hd, Net.finishes_bind, Net.finishes_get, h.ends, Net.finishes_bind,
      Net.finishes_check]
    rintro ⟨buffer, stored⟩ hpush
    dsimp only
    rw [Net.finishes_bind, Net.finishes_check]
    intro dropped hdropped
    have hstored : stored ≤ data.length := by
      rw [((hc.valid e).toList_push hpush).1]
      exact Nat.min_le_left _ _
    obtain rfl := Except.ok.inj ((subLengths_eq_ok hstored).symm.trans hdropped)
    rw [Net.finishes_bind, Net.finishes_modify, Net.finishes_bind, Net.finishes_modify]
    have hnoted : (w.record (.dataKept (line.slots e) source message (data.take stored))).Shows
        line := h.record fun _ => rfl
    have hkept : World.Talks (Tcp.keepData (line.slots e) buffer data.length
        (data.length - stored) (w.record (.dataKept (line.slots e) source message
          (data.take stored)))) line.slots losses t said := by
      refine ⟨_, hnoted.keepData e buffer data.length (data.length - stored), rfl, ?_, hc.keep hpush⟩
      rw [Line.tells_keep]
      exact hl
    refine (sendAck_talks hkept e).mono fun _ w' hw => ?_
    obtain ⟨said', hload, hw⟩ := hw
    refine ⟨said', Nat.lt_of_le_of_lt hload ?_, hw⟩
    rw [Nat.add_comm]
    exact Nat.add_lt_add_right Nat.one_lt_two _

theorem Tcp.handle_saying {header : Header} {data : Bytes} (h : w.Shows line)
    (hs : line.Tells ⟨!e, data⟩ (.segment header data))
    (hl : List.Forall₂ line.Tells said line.letters)
    (hc : line.Conveys losses t (⟨!e, data⟩ :: said)) :
    Net.Finishes (handle p (header.segment data line.own line.own) line.own) w fun _ w' =>
      ∃ said', load said' < load (⟨!e, data⟩ :: said) ∧ w'.Talks line.slots losses t said' := by
  obtain ⟨header', hsegment, hsource, hdest, hack, hrst, hfin⟩ := hs
  obtain ⟨rfl, -⟩ := Letter.segment.inj hsegment
  dsimp only at hsource hdest
  rw [Bool.not_not] at hdest
  rw [← hc.remotePort] at hsource
  have hdemux : w.host.tcp.demux? header.dest line.own header.source = some (line.slots e) := by
    rw [hdest, hsource]
    exact h.demux_connection (hc.inUse e) (by simp [hc.established]) (hc.remoteIp e)
  apply handle_segment h hrst hdemux
  intro checksum
  rw [hc.established, advance]
  dsimp only
  rw [hfin, if_neg Bool.false_ne_true, if_pos hack, Net.finishes_bind, Net.finishes_check]
  intro payload hslice
  have hpayload : payload = data := by
    rw [Bytes.eq_of_slice hslice, ← List.length_drop, List.take_length, Header.drop_segment]
  rw [hpayload]
  exact acceptData_talks h hl hc

theorem Net.drain_of_unsaid {handle : Bytes → Net Loopback Unit} {budget : Nat}
    (h : w.Talks slots losses t []) :
    Finishes (drain handle budget) w fun _ w' => w'.Talks slots losses t [] := by
  obtain ⟨line, hshows, -, hletters, -⟩ := id h
  exact drain_of_silent hshows (List.forall₂_nil_left_iff.1 hletters) h

/-- Reading goes on until nothing is under way. -/
theorem Net.drain_talks {inner : Poller Loopback} {budget : Nat} (hb : load said ≤ budget)
    (h : w.Talks slots losses t said) :
    Finishes (drain (handleFrame inner) budget) w fun _ w' => w'.Talks slots losses t [] := by
  -- The load falls with every segment that is read, although reading may put one more under way.
  induction budget generalizing w said with
  | zero =>
    cases said with
    | nil => exact drain_of_unsaid h
    | cons s said =>
      have hpos : 0 < load (s :: said) := load_pos s said
      exact absurd hb (Nat.not_le_of_lt hpos)
  | succ budget ih =>
    cases said with
    | nil => exact drain_of_unsaid h
    | cons s said =>
      obtain ⟨line, hshows, rfl, hletters, hconveys⟩ := h
      obtain ⟨letter, letters, htells, hrest, hl⟩ := List.forall₂_cons_left_iff.1 hletters
      obtain ⟨header, rfl, -⟩ := id htells
      obtain ⟨e, data⟩ := s
      rw [← Bool.not_not e] at htells hconveys hb
      refine drain_of_letter hshows hl fun frame w₁ hborne h₁ => ?_
      refine handleFrame_segment h₁ hborne ?_
      refine (handle_saying h₁ htells hrest (hconveys.of_letters letters)).mono fun _ w₂ h₂ => ?_
      obtain ⟨said', hless, h₂⟩ := h₂
      exact ih (Nat.le_of_lt_succ (Nat.lt_of_lt_of_le hless hb)) h₂

theorem Poller.Drains.poll_talks (hp : p.Drains) (h : w.Talks slots losses t said) :
    Net.Finishes p.poll w fun _ w' => w'.Talks slots losses t [] := by
  obtain ⟨inner, hpoll⟩ := hp.poll_eq
  obtain ⟨line, hshows, -, hletters, -⟩ := id h
  have hroom := hshows.room
  rw [← hletters.length_eq] at hroom
  have hload := load_le said
  rw [hpoll]
  apply Net.drain_talks _ h
  exact Nat.le_trans hload (Nat.le_trans (Nat.mul_le_mul_left 2 hroom) (by decide))

end Reception

end InetHost
