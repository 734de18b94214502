import AtomicMemory.Lib.Inet6

-- The special-purpose blocks that the properties of Python's addresses are defined by.

namespace Inet

/-- The addresses of `bits` bits that start with the first `length` bits of `network`. -/
structure Block (bits : ℕ) where
  network : ℕ
  length : ℕ

/-- `ip in network`. -/
def Block.contains {bits : ℕ} (block : Block bits) (ip : ℕ) : Bool :=
  ip / 2 ^ (bits - block.length) = block.network / 2 ^ (bits - block.length)

def v4Block (a b c d length : ℕ) : Block 32 := ⟨((a * 256 + b) * 256 + c) * 256 + d, length⟩

def v6Block (g₀ g₁ g₂ g₇ length : ℕ) : Block 128 :=
  ⟨groupsValue [g₀, g₁, g₂, 0, 0, 0, 0, g₇], length⟩

def privateV4 : List (Block 32) :=
  [v4Block 0 0 0 0 8, v4Block 10 0 0 0 8, v4Block 127 0 0 0 8, v4Block 169 254 0 0 16,
    v4Block 172 16 0 0 12, v4Block 192 0 0 0 24, v4Block 192 0 0 170 31, v4Block 192 0 2 0 24,
    v4Block 192 168 0 0 16, v4Block 198 18 0 0 15, v4Block 198 51 100 0 24,
    v4Block 203 0 113 0 24, v4Block 240 0 0 0 4, v4Block 255 255 255 255 32]

def privateExceptionsV4 : List (Block 32) := [v4Block 192 0 0 9 32, v4Block 192 0 0 10 32]

def privateV6 : List (Block 128) :=
  [v6Block 0 0 0 1 128, v6Block 0 0 0 0 128, ⟨0xffff * 2 ^ 32, 96⟩, v6Block 0x64 0xff9b 1 0 48,
    v6Block 0x100 0 0 0 64, v6Block 0x2001 0 0 0 23, v6Block 0x2001 0xdb8 0 0 32,
    v6Block 0x2002 0 0 0 16, v6Block 0xfc00 0 0 0 7, v6Block 0xfe80 0 0 0 10]

def privateExceptionsV6 : List (Block 128) :=
  [v6Block 0x2001 1 0 1 128, v6Block 0x2001 1 0 2 128, v6Block 0x2001 3 0 0 32,
    v6Block 0x2001 4 0x112 0 48, v6Block 0x2001 0x20 0 0 28, v6Block 0x2001 0x30 0 0 28]

def reservedV6 : List (Block 128) :=
  [v6Block 0 0 0 0 8, v6Block 0x100 0 0 0 8, v6Block 0x200 0 0 0 7, v6Block 0x400 0 0 0 6,
    v6Block 0x800 0 0 0 5, v6Block 0x1000 0 0 0 4, v6Block 0x4000 0 0 0 3, v6Block 0x6000 0 0 0 3,
    v6Block 0x8000 0 0 0 3, v6Block 0xa000 0 0 0 3, v6Block 0xc000 0 0 0 3, v6Block 0xe000 0 0 0 4,
    v6Block 0xf000 0 0 0 5, v6Block 0xf800 0 0 0 6, v6Block 0xfe00 0 0 0 9]

namespace IpAddress

def isLinkLocal : IpAddress → Bool
  | v4 ip => (v4Block 169 254 0 0 16).contains ip
  | v6 ip _ => (v6Block 0xfe80 0 0 0 10).contains ip

def isLoopback : IpAddress → Bool
  | v4 ip => (v4Block 127 0 0 0 8).contains ip
  | v6 ip _ => ip = 1

def isPrivateV4 (ip : ℕ) : Bool :=
  privateV4.any (·.contains ip) && privateExceptionsV4.all (!·.contains ip)

def isPrivate : IpAddress → Bool
  | v4 ip => isPrivateV4 ip
  | v6 ip scopeId =>
    match ipv4Mapped (v6 ip scopeId) with
    | some mapped => isPrivateV4 mapped
    | none => privateV6.any (·.contains ip) && privateExceptionsV6.all (!·.contains ip)

def isReserved : IpAddress → Bool
  | v4 ip => (v4Block 240 0 0 0 4).contains ip
  | v6 ip _ => reservedV6.any (·.contains ip)

def isMulticast : IpAddress → Bool
  | v4 ip => (v4Block 224 0 0 0 4).contains ip
  | v6 ip _ => (v6Block 0xff00 0 0 0 8).contains ip

def isUnspecified : IpAddress → Bool
  | v4 ip => ip.val = 0
  | v6 ip _ => ip = 0

end IpAddress

theorem isLinkLocal_v4 (a : Ipv4) : (IpAddress.v4 a).isLinkLocal ↔ a.val / 2 ^ 16 = 0xa9fe :=
  decide_eq_true_iff

end Inet
