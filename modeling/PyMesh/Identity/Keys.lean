import PyMesh.Protocol.Messages
import Mathlib.Algebra.Order.Ring.Nat

/-! Node ids: `sha256(b64decode(public_key)).hexdigest()`. -/
namespace PyMesh

namespace Base64

/-- The six bits of a character of the alphabet. -/
def sextet (c : Char) : Option Nat :=
  if 'A' ≤ c ∧ c ≤ 'Z' then some (c.toNat - 'A'.toNat)
  else if 'a' ≤ c ∧ c ≤ 'z' then some (c.toNat - 'a'.toNat + 26)
  else if '0' ≤ c ∧ c ≤ '9' then some (c.toNat - '0'.toNat + 52)
  else if c = '+' then some 62
  else if c = '/' then some 63
  else none

/-- The loop of `binascii.a2b_base64` outside strict mode: characters that are not in the
alphabet are skipped, and padding that completes a group ends the input. -/
def a2bLoop : List Char → (quadPos left pads : Nat) → List UInt8 → Except Exc (List UInt8)
  | [], quadPos, _, _, out =>
    if quadPos = 0 then .ok out.reverse
    else if quadPos = 1 then
      .error (.binasciiError ("Invalid base64-encoded string: number of data characters (" ++
        toString (out.length / 3 * 4 + 1) ++ ") cannot be 1 more than a multiple of 4"))
    else .error (.binasciiError "Incorrect padding")
  | c :: cs, quadPos, left, pads, out =>
    if c = '=' then
      if quadPos < 2 then a2bLoop cs quadPos left pads out
      else if 4 ≤ quadPos + (pads + 1) then .ok out.reverse
      else a2bLoop cs quadPos left (pads + 1) out
    else match sextet c with
      | none => a2bLoop cs quadPos left pads out
      | some v => match quadPos with
        | 0 => a2bLoop cs 1 v 0 out
        | 1 => a2bLoop cs 2 (v % 16) 0 (UInt8.ofNat (left * 4 + v / 16) :: out)
        | 2 => a2bLoop cs 3 (v % 4) 0 (UInt8.ofNat (left * 16 + v / 4) :: out)
        | _ => a2bLoop cs 0 0 0 (UInt8.ofNat (left * 64 + v) :: out)

theorem a2bLoop_error {cs : List Char} {quadPos left pads : Nat} {out : List UInt8} {e : Exc}
    (h : a2bLoop cs quadPos left pads out = .error e) : ∃ msg, e = .binasciiError msg := by
  fun_induction a2bLoop cs quadPos left pads out <;> grind

/-- `base64.b64decode`. -/
def b64decode (s : String) : Except Exc (List UInt8) :=
  if s.toList.all fun c => c.toNat < 128 then a2bLoop s.toList 0 0 0 []
  else .error (.valueError "string argument should contain only ASCII characters")

end Base64

namespace Sha256

def roundConstants : List Nat :=
  [0x428a2f98, 0x71374491, 0xb5c0fbcf, 0xe9b5dba5, 0x3956c25b, 0x59f111f1, 0x923f82a4, 0xab1c5ed5,
   0xd807aa98, 0x12835b01, 0x243185be, 0x550c7dc3, 0x72be5d74, 0x80deb1fe, 0x9bdc06a7, 0xc19bf174,
   0xe49b69c1, 0xefbe4786, 0x0fc19dc6, 0x240ca1cc, 0x2de92c6f, 0x4a7484aa, 0x5cb0a9dc, 0x76f988da,
   0x983e5152, 0xa831c66d, 0xb00327c8, 0xbf597fc7, 0xc6e00bf3, 0xd5a79147, 0x06ca6351, 0x14292967,
   0x27b70a85, 0x2e1b2138, 0x4d2c6dfc, 0x53380d13, 0x650a7354, 0x766a0abb, 0x81c2c92e, 0x92722c85,
   0xa2bfe8a1, 0xa81a664b, 0xc24b8b70, 0xc76c51a3, 0xd192e819, 0xd6990624, 0xf40e3585, 0x106aa070,
   0x19a4c116, 0x1e376c08, 0x2748774c, 0x34b0bcb5, 0x391c0cb3, 0x4ed8aa4a, 0x5b9cca4f, 0x682e6ff3,
   0x748f82ee, 0x78a5636f, 0x84c87814, 0x8cc70208, 0x90befffa, 0xa4506ceb, 0xbef9a3f7, 0xc67178f2]

/-- The eight working variables of the compression function. -/
structure Vars where
  a : Nat
  b : Nat
  c : Nat
  d : Nat
  e : Nat
  f : Nat
  g : Nat
  h : Nat

def initial : Vars :=
  ⟨0x6a09e667, 0xbb67ae85, 0x3c6ef372, 0xa54ff53a, 0x510e527f, 0x9b05688c, 0x1f83d9ab, 0x5be0cd19⟩

def add (x y : Nat) : Nat := (x + y) % 2 ^ 32

def rotr (n x : Nat) : Nat := (x >>> n ||| x <<< (32 - n)) % 2 ^ 32

/-- The next word of the message schedule; the words so far are given last first. -/
def nextWord (ws : List Nat) : Nat :=
  let w2 := ws.getD 1 0
  let w15 := ws.getD 14 0
  let s1 := rotr 17 w2 ^^^ rotr 19 w2 ^^^ w2 >>> 10
  let s0 := rotr 7 w15 ^^^ rotr 18 w15 ^^^ w15 >>> 3
  add (add s1 (ws.getD 6 0)) (add s0 (ws.getD 15 0))

/-- The schedule extended by `n` words. -/
def extend : Nat → List Nat → List Nat
  | 0, ws => ws
  | n + 1, ws => extend n (nextWord ws :: ws)

def round (v : Vars) (kw : Nat × Nat) : Vars :=
  let s1 := rotr 6 v.e ^^^ rotr 11 v.e ^^^ rotr 25 v.e
  let ch := (v.e &&& v.f) ^^^ ((2 ^ 32 - 1 - v.e) &&& v.g)
  let t1 := add (add v.h s1) (add ch (add kw.1 kw.2))
  let s0 := rotr 2 v.a ^^^ rotr 13 v.a ^^^ rotr 22 v.a
  let maj := (v.a &&& v.b) ^^^ (v.a &&& v.c) ^^^ (v.b &&& v.c)
  ⟨add t1 (add s0 maj), v.a, v.b, v.c, add v.d t1, v.e, v.f, v.g⟩

def compress (v : Vars) (block : List Nat) : Vars :=
  let ws := (extend 48 block.reverse).reverse
  let v' := (roundConstants.zip ws).foldl round v
  ⟨add v.a v'.a, add v.b v'.b, add v.c v'.c, add v.d v'.d,
    add v.e v'.e, add v.f v'.f, add v.g v'.g, add v.h v'.h⟩

/-- The message with its padding, as big-endian words. -/
def words (msg : List UInt8) : List Nat :=
  let padded := msg.map UInt8.toNat ++ [0x80] ++ List.replicate ((119 - msg.length % 64) % 64) 0 ++
    (List.range 8).map fun i => 8 * msg.length / 2 ^ (8 * (7 - i)) % 256
  (List.range (padded.length / 4)).map fun i =>
    ((padded.drop (4 * i)).take 4).foldl (fun acc b => acc * 256 + b) 0

/-- `hashlib.sha256(msg).hexdigest()`. -/
def hexdigest (msg : List UInt8) : String :=
  let ws := words msg
  let v := (List.range (ws.length / 16)).foldl
    (fun v i => compress v ((ws.drop (16 * i)).take 16)) initial
  let digits := [v.a, v.b, v.c, v.d, v.e, v.f, v.g, v.h].flatMap fun x =>
    (List.range 8).map fun i => x / 16 ^ (7 - i) % 16
  String.ofList (digits.map Nat.digitChar)

/-- A digest is 64 hexadecimal digits. -/
theorem length_hexdigest (msg : List UInt8) : (hexdigest msg).toList.length = 64 := by
  simp [hexdigest]

theorem mem_hexdigest {msg : List UInt8} {c : Char} (h : c ∈ (hexdigest msg).toList) :
    ∃ d < 16, c = d.digitChar := by
  rw [hexdigest, String.toList_ofList, List.mem_map] at h
  obtain ⟨d, hd, rfl⟩ := h
  obtain ⟨x, -, hx⟩ := List.mem_flatMap.mp hd
  obtain ⟨i, -, rfl⟩ := List.mem_map.mp hx
  exact ⟨_, Nat.mod_lt _ (by decide), rfl⟩

end Sha256

/-- `KeyManager.derive_node_id`. -/
def deriveNodeId (publicKeyB64 : String) : Except Exc String := do
  let pubBytes ← Base64.b64decode publicKeyB64
  return Sha256.hexdigest pubBytes

theorem eq_hexdigest {publicKeyB64 nodeId : String} (h : deriveNodeId publicKeyB64 = .ok nodeId) :
    ∃ pubBytes, nodeId = Sha256.hexdigest pubBytes := by
  cases hd : Base64.b64decode publicKeyB64 with
  | ok pubBytes =>
    refine ⟨pubBytes, ?_⟩
    simpa [deriveNodeId, hd, bind, Except.bind, pure, Except.pure, eq_comm] using h
  | error e => simp [deriveNodeId, hd, bind, Except.bind] at h

/-- Keys that decode to the same bytes give the same id, whatever the digest. -/
theorem deriveNodeId_congr {a b : String} (h : Base64.b64decode a = Base64.b64decode b) :
    deriveNodeId a = deriveNodeId b := by
  rw [deriveNodeId, h, deriveNodeId]

theorem exists_decoded {publicKeyB64 nodeId : String} (h : deriveNodeId publicKeyB64 = .ok nodeId) :
    ∃ pubBytes, Base64.b64decode publicKeyB64 = .ok pubBytes := by
  cases hd : Base64.b64decode publicKeyB64 with
  | ok pubBytes => exact ⟨pubBytes, rfl⟩
  | error e => simp [deriveNodeId, hd, bind, Except.bind] at h

/-- Only the decoding of the key can fail. -/
theorem deriveNodeId_error {publicKeyB64 : String} {e : Exc}
    (h : deriveNodeId publicKeyB64 = .error e) :
    (∃ msg, e = .binasciiError msg) ∨ ∃ msg, e = .valueError msg := by
  cases hd : Base64.b64decode publicKeyB64 with
  | ok pubBytes => simp [deriveNodeId, hd, bind, Except.bind, pure, Except.pure] at h
  | error e' =>
    obtain rfl : e' = e := by simpa [deriveNodeId, hd, bind, Except.bind] using h
    unfold Base64.b64decode at hd
    split at hd
    · exact Or.inl (Base64.a2bLoop_error hd)
    · cases hd
      exact Or.inr ⟨_, rfl⟩

end PyMesh
