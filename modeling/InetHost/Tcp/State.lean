/-! The states of a connection. -/

namespace InetHost.Tcp

inductive State
  | closed
  | listen
  | synSent
  | synReceived
  | established
  | finWait1
  | finWait2
  | closeWait
  | closing
  | lastAck
  | timeWait
  deriving DecidableEq, Repr

namespace State

def all : List State :=
  [closed, listen, synSent, synReceived, established, finWait1, finWait2, closeWait, closing,
    lastAck, timeWait]

def number : State → Nat
  | closed => 0
  | listen => 1
  | synSent => 2
  | synReceived => 3
  | established => 4
  | finWait1 => 5
  | finWait2 => 6
  | closeWait => 7
  | closing => 8
  | lastAck => 9
  | timeWait => 10

def name : State → String
  | closed => "TCP_CLOSED"
  | listen => "TCP_LISTEN"
  | synSent => "TCP_SYN_SENT"
  | synReceived => "TCP_SYN_RCVD"
  | established => "TCP_ESTABLISHED"
  | finWait1 => "TCP_FIN_WAIT1"
  | finWait2 => "TCP_FIN_WAIT2"
  | closeWait => "TCP_CLOSE_WAIT"
  | closing => "TCP_CLOSING"
  | lastAck => "TCP_LAST_ACK"
  | timeWait => "TCP_TIME_WAIT"

theorem mem_all (s : State) : s ∈ all := by cases s <;> decide

theorem map_number_all : all.map number = List.range 11 := rfl

end State

end InetHost.Tcp
