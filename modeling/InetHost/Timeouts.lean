/-! How long the blocking operations wait, in milliseconds. -/

namespace InetHost.Timeouts

def resolve : UInt64 := 1000

/-- For a hardware address, before an echo request is answered. -/
def resolveForReply : UInt64 := 500

def ping : UInt64 := 3000

def connect : UInt64 := 5000

def lookup : UInt64 := 3000

end InetHost.Timeouts
