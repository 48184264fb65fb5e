import CycloneCrypto.Bits

/-!
# The common interface of the block ciphers

`crypto.h` is not among the sources; what `aes.c` and `camellia.c` take from it is modelled here
from their use and from the spec (§4.1, §6, §7):

* `ErrorCode` -- the two codes the initialisers return;
* `Block` -- the 16 bytes an `encryptBlock` or `decryptBlock` reads and writes;
* `CipherAlgo` -- the descriptor through which the modes of operation call a cipher;
* `CipherAlgo.IsBlockCipher` -- what a descriptor is for: an initialiser that accepts exactly the
  supported key lengths and leaves a rejected context alone, and, under every accepted key, an
  encryption and a decryption that are inverse permutations of the blocks and depend on the key
  alone, never on what the context held before.
-/

namespace CycloneCrypto

/-- `error_t`: the codes the initialisers return. -/
inductive ErrorCode where
  | noError
  | invalidKeyLength
  deriving DecidableEq, Repr

/-- `CIPHER_ALGO_TYPE_STREAM` and `CIPHER_ALGO_TYPE_BLOCK`. -/
inductive CipherAlgoType where
  | stream
  | block
  deriving DecidableEq, Repr

/-- A 16-byte block: `input[0..15]` or `output[0..15]`. -/
abbrev Block := Fin 16 → Byte

/-- `CipherAlgo`, the descriptor of a cipher over contexts of type `Ctx`. The stream slots (`NULL`
    for both block ciphers) and `contextSize` (the `sizeof` of a context type whose declaration is
    not among the sources) are left out. -/
structure CipherAlgo (Ctx : Type) where
  name : String
  type : CipherAlgoType
  blockSize : Nat
  init : Ctx → List Byte → ErrorCode × Ctx
  encryptBlock : Ctx → Block → Block
  decryptBlock : Ctx → Block → Block

/-- **What a block cipher is for**, given the key lengths `keyOk` it accepts. -/
structure CipherAlgo.IsBlockCipher {Ctx : Type} (A : CipherAlgo Ctx) (keyOk : List Byte → Prop) :
    Prop where
  init_ok : ∀ c K, keyOk K → (A.init c K).1 = .noError
  init_error : ∀ c K, ¬ keyOk K → A.init c K = (.invalidKeyLength, c)
  decrypt_encrypt : ∀ c K B, keyOk K →
    A.decryptBlock (A.init c K).2 (A.encryptBlock (A.init c K).2 B) = B
  encrypt_decrypt : ∀ c K B, keyOk K →
    A.encryptBlock (A.init c K).2 (A.decryptBlock (A.init c K).2 B) = B
  encrypt_rekey : ∀ c₁ c₂ K B, keyOk K →
    A.encryptBlock (A.init c₁ K).2 B = A.encryptBlock (A.init c₂ K).2 B
  decrypt_rekey : ∀ c₁ c₂ K B, keyOk K →
    A.decryptBlock (A.init c₁ K).2 B = A.decryptBlock (A.init c₂ K).2 B

/-- The key lengths both ciphers accept: 128, 192 and 256 bits. -/
def KeyLengthOk (K : List Byte) : Prop := K.length = 16 ∨ K.length = 24 ∨ K.length = 32

instance (K : List Byte) : Decidable (KeyLengthOk K) := inferInstanceAs (Decidable (_ ∨ _))

/-- An accepted key is `Nk = 4, 6` or `8` words. -/
theorem KeyLengthOk.nk_cases {K : List Byte} (hK : KeyLengthOk K) :
    K.length / 4 = 4 ∨ K.length / 4 = 6 ∨ K.length / 4 = 8 := by
  rcases hK with h | h | h <;> omega

end CycloneCrypto
