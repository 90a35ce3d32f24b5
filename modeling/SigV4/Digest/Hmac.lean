import SigV4.Digest.Sha256

/-!
# SigV4.Digest.Hmac

The keyed digest of a byte string: the message is hashed behind one mask of the key, and the outcome
behind another. A key of any length will do: a long one is hashed first, a short one filled up with
zeros to the size of a block.
-/

namespace SigV4
namespace Hmac

/-- The size of a block of SHA-256. -/
def blockSize : Nat := 64

/-- The key as one whole block. -/
def blockKey (key : Bytes) : Bytes :=
  let short := if key.length ≤ blockSize then key else (sha256 key).bytes
  short ++ List.replicate (blockSize - short.length) 0

theorem length_blockKey (key : Bytes) : (blockKey key).length = blockSize := by
  simp only [blockKey]
  split
  · next h => simp; omega
  · simp [Digest.length_bytes, blockSize]

def mask (b : UInt8) (key : Bytes) : Bytes := (blockKey key).map (· ^^^ b)

end Hmac

def hmac (key message : Bytes) : Digest :=
  sha256 (Hmac.mask 0x5c key ++ (sha256 (Hmac.mask 0x36 key ++ message)).bytes)

end SigV4
