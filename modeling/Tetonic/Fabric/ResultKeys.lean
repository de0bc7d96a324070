import Tetonic.Fabric.Ingress
import Tetonic.Lib.Text
set_option autoImplicit false

/-! The keys that workers sign results with. A registration replaces what is on file under the
same worker and key id, a revoked key too, and a worker's chat response registers the key that it
brings along. -/

namespace Tetonic.Fabric
open Lib

structure Crypto where
  /-- What is wrong with 32 bytes as a verifying key. -/
  keyFault : List UInt8 → Option String
  verifies (key message signature : List UInt8) : Bool
  sha256Hex : List UInt8 → String

structure ResultSigningKeyRecord where
  (keyId workerId : String)
  publicKey : List UInt8
  validFrom : Int
  validUntil : Option Int
  revoked : Bool
  identityCertification : Option (List UInt8)
  rotationGeneration : UInt64
  deriving DecidableEq

structure ResultSigningKeyRegistry where
  keys : List ResultSigningKeyRecord
  deriving DecidableEq

def ResultSigningKeyRecord.isOf (r : ResultSigningKeyRecord) (workerId keyId : String) : Bool :=
  r.workerId == workerId && r.keyId == keyId

def verifyingKeyFromBytes (crypto : Crypto) (bytes : List UInt8) : Except FabricError Unit :=
  if bytes.length ≠ 32 then .error ⟨.invalidSignature, "verifying key must be 32 bytes"⟩
  else
    match crypto.keyFault bytes with
    | some fault => .error ⟨.invalidSignature, "invalid verifying key: " ++ fault⟩
    | none => .ok ()

namespace ResultSigningKeyRegistry

def empty : ResultSigningKeyRegistry := ⟨[]⟩

def register (crypto : Crypto) (g : ResultSigningKeyRegistry) (record : ResultSigningKeyRecord) :
    Except FabricError ResultSigningKeyRegistry :=
  match verifyingKeyFromBytes crypto record.publicKey with
  | .error e => .error e
  | .ok () =>
    if Text.blank record.keyId then .error ⟨.invalidEnvelope, "empty key_id"⟩
    else .ok ⟨g.keys.filter (fun k => !k.isOf record.workerId record.keyId) ++ [record]⟩

def revoke (g : ResultSigningKeyRegistry) (workerId keyId : String) :
    ResultSigningKeyRegistry × Bool :=
  (⟨g.keys.map fun k => if k.isOf workerId keyId then { k with revoked := true } else k⟩,
    g.keys.any fun k => k.isOf workerId keyId)

def revokeWorker (g : ResultSigningKeyRegistry) (workerId : String) : ResultSigningKeyRegistry :=
  ⟨g.keys.map fun k => if k.workerId = workerId then { k with revoked := true } else k⟩

def lookup (g : ResultSigningKeyRegistry) (workerId keyId : String) (now : Int) :
    Except FabricError ResultSigningKeyRecord :=
  match g.keys.find? (fun k => k.isOf workerId keyId) with
  | none => .error ⟨.invalidSignature,
      "unknown result signing key " ++ keyId ++ " for worker " ++ workerId⟩
  | some r =>
    if r.revoked then .error ⟨.revokedIdentity, "result signing key " ++ keyId ++ " revoked"⟩
    else if now < r.validFrom then
      .error ⟨.invalidSignature, "result signing key not yet valid"⟩
    else if r.validUntil.any (fun until_ => decide (now > until_)) then
      .error ⟨.invalidSignature, "result signing key expired"⟩
    else .ok r

end ResultSigningKeyRegistry

/-- `key_id_from_public`: the first eight bytes of the key's hash, in hexadecimal. -/
def keyIdFromPublic (crypto : Crypto) (publicKey : List UInt8) : String :=
  "rsk_" ++ String.ofList ((crypto.sha256Hex publicKey).toList.take 16)

/-- The record that `register_result_signing_key` files for its worker, an hour (in nanoseconds)
old at once. -/
def chatKeyRecord (crypto : Crypto) (workerId : String) (publicKey : List UInt8) (now : Int) :
    ResultSigningKeyRecord where
  keyId := keyIdFromPublic crypto publicKey
  workerId := workerId
  publicKey := publicKey
  validFrom := now - 3600000000000
  validUntil := none
  revoked := false
  identityCertification := none
  rotationGeneration := 1

def registerResultSigningKey (crypto : Crypto) (g : ResultSigningKeyRegistry) (workerId : String)
    (publicKey : List UInt8) (now : Int) : Except FabricError ResultSigningKeyRegistry :=
  g.register crypto (chatKeyRecord crypto workerId publicKey now)

/-- What changes the registry: the calls on it, and a worker's chat response with the key it
brings, which is registered before the envelope is read. -/
inductive KeyCall where
  | register (record : ResultSigningKeyRecord)
  | revoke (workerId keyId : String)
  | revokeWorker (workerId : String)
  | chatResponse (workerId : String) (publicKeyHex : Option String) (now : Int)

def KeyCall.apply (crypto : Crypto) (g : ResultSigningKeyRegistry) :
    KeyCall → ResultSigningKeyRegistry
  | .register record => (g.register crypto record).toOption.getD g
  | .revoke workerId keyId => (g.revoke workerId keyId).1
  | .revokeWorker workerId => g.revokeWorker workerId
  | .chatResponse workerId publicKeyHex now =>
    match publicKeyHex.bind (fun hex => Text.hexBytes hex.toList) with
    | none => g
    | some publicKey =>
      (registerResultSigningKey crypto g workerId publicKey now).toOption.getD g

def runKeyCalls (crypto : Crypto) (g : ResultSigningKeyRegistry) (calls : List KeyCall) :
    ResultSigningKeyRegistry :=
  calls.foldl (KeyCall.apply crypto) g

def ResultSigningKeyRecord.ValidAt (r : ResultSigningKeyRecord) (now : Int) : Prop :=
  r.revoked = false ∧ r.validFrom ≤ now ∧ ∀ last ∈ r.validUntil, now ≤ last

def Crypto.Registers (crypto : Crypto) (r : ResultSigningKeyRecord) : Prop :=
  verifyingKeyFromBytes crypto r.publicKey = .ok () ∧ Text.blank r.keyId = false

section
variable {crypto : Crypto} {g : ResultSigningKeyRegistry} {r : ResultSigningKeyRecord}
  {workerId keyId : String}

namespace ResultSigningKeyRegistry

theorem lookup_ok {now : Int} :
    g.lookup workerId keyId now = .ok r ↔
      g.keys.find? (fun k => k.isOf workerId keyId) = some r ∧ r.ValidAt now := by
  unfold lookup
  cases hfind : g.keys.find? (fun k => k.isOf workerId keyId) with
  | none => simp
  | some r' =>
    simp only [Option.some.injEq]
    constructor
    · intro h
      split at h
      · cases h
      split at h
      · cases h
      split at h
      · cases h
      rename_i hlive hfrom huntil
      cases h
      refine ⟨rfl, by simpa using hlive, Int.not_lt.mp hfrom, fun last hlast => ?_⟩
      rw [Option.mem_def.mp hlast] at huntil
      simpa using huntil
    · intro h
      obtain ⟨rfl, hlive, hfrom, huntil⟩ := h
      rw [if_neg (by simp [hlive]), if_neg (Int.not_lt.mpr hfrom), if_neg]
      cases hlast : r'.validUntil with
      | none => simp
      | some last => simpa using huntil last hlast

theorem register_eq (h : crypto.Registers r) (g : ResultSigningKeyRegistry) :
    g.register crypto r = .ok ⟨g.keys.filter (fun k => !k.isOf r.workerId r.keyId) ++ [r]⟩ := by
  simp [register, h.1, h.2]

theorem register_error (h : ¬ crypto.Registers r) (g : ResultSigningKeyRegistry) :
    ∃ e, g.register crypto r = .error e := by
  unfold register
  split
  · exact ⟨_, rfl⟩
  · rename_i hkey
    rw [if_pos]
    · exact ⟨_, rfl⟩
    · simpa [Crypto.Registers, hkey] using h

end ResultSigningKeyRegistry

def KeyCall.record (crypto : Crypto) : KeyCall → Option ResultSigningKeyRecord
  | .register record => some record
  | .revoke _ _ | .revokeWorker _ => none
  | .chatResponse workerId publicKeyHex now =>
    (publicKeyHex.bind fun hex => Text.hexBytes hex.toList).map fun publicKey =>
      chatKeyRecord crypto workerId publicKey now

/-- The call registers a key under this worker and key id that is valid at some time. -/
def KeyCall.Reinstates (crypto : Crypto) (workerId keyId : String) (call : KeyCall) : Prop :=
  ∃ r, call.record crypto = some r ∧ crypto.Registers r ∧ r.isOf workerId keyId ∧
    ∃ now, r.ValidAt now

variable {call : KeyCall}

theorem KeyCall.apply_of_record (h : call.record crypto = some r) (g : ResultSigningKeyRegistry) :
    call.apply crypto g = (g.register crypto r).toOption.getD g := by
  cases call with
  | register =>
    cases h
    rfl
  | revoke | revokeWorker => cases h
  | chatResponse =>
    simp only [record, Option.map_eq_some_iff] at h
    obtain ⟨publicKey, hhex, rfl⟩ := h
    simp only [apply, hhex, registerResultSigningKey]

/-- The registry with the keys that `f` picks revoked. -/
def ResultSigningKeyRegistry.revokeIf (g : ResultSigningKeyRegistry)
    (f : ResultSigningKeyRecord → Bool) : ResultSigningKeyRegistry :=
  ⟨g.keys.map fun k => if f k then { k with revoked := true } else k⟩

theorem KeyCall.apply_of_no_record (h : call.record crypto = none) (g : ResultSigningKeyRegistry) :
    ∃ f, call.apply crypto g = g.revokeIf f := by
  cases call with
  | register => cases h
  | revoke workerId keyId => exact ⟨fun k => k.isOf workerId keyId, rfl⟩
  | revokeWorker workerId =>
    refine ⟨fun k => decide (k.workerId = workerId), ?_⟩
    simp [apply, ResultSigningKeyRegistry.revokeWorker, ResultSigningKeyRegistry.revokeIf]
  | chatResponse =>
    simp only [record, Option.map_eq_none_iff] at h
    refine ⟨fun _ => false, ?_⟩
    simp [apply, h, ResultSigningKeyRegistry.revokeIf]

/-- No key on file under this worker and key id is valid at any time. -/
def Lapsed (g : ResultSigningKeyRegistry) (workerId keyId : String) : Prop :=
  ∀ r ∈ g.keys, r.isOf workerId keyId → ∀ now, ¬ r.ValidAt now

theorem Lapsed.lookup {keyId : String} (h : Lapsed g workerId keyId) (now : Int)
    (r : ResultSigningKeyRecord) :
    g.lookup workerId keyId now ≠ .ok r := by
  intro hlookup
  obtain ⟨hfind, hvalid⟩ := ResultSigningKeyRegistry.lookup_ok.mp hlookup
  have hof : r.isOf workerId keyId = true := by simpa using List.find?_some hfind
  exact h r (List.mem_of_find?_eq_some hfind) hof now hvalid

theorem Lapsed.revokeIf {keyId : String} (h : Lapsed g workerId keyId)
    (f : ResultSigningKeyRecord → Bool) :
    Lapsed (g.revokeIf f) workerId keyId := by
  intro k hk hof now hvalid
  obtain ⟨k', hk', rfl⟩ := List.mem_map.mp hk
  split at hvalid
  · exact absurd hvalid.1 (by simp)
  · rename_i hf
    rw [if_neg hf] at hof
    exact h k' hk' hof now hvalid

theorem Lapsed.apply (h : Lapsed g workerId keyId)
    (hcall : ¬ call.Reinstates crypto workerId keyId) :
    Lapsed (call.apply crypto g) workerId keyId := by
  cases hrecord : call.record crypto with
  | none =>
    obtain ⟨f, heq⟩ := KeyCall.apply_of_no_record hrecord g
    rw [heq]
    exact h.revokeIf f
  | some r =>
    rw [KeyCall.apply_of_record hrecord]
    by_cases hregisters : crypto.Registers r
    · rw [ResultSigningKeyRegistry.register_eq hregisters]
      intro k hk hof now hvalid
      obtain hk | hk := List.mem_append.mp hk
      · exact h k (List.mem_filter.mp hk).1 hof now hvalid
      · cases List.mem_singleton.mp hk
        exact hcall ⟨r, hrecord, hregisters, hof, now, hvalid⟩
    · obtain ⟨e, he⟩ := ResultSigningKeyRegistry.register_error hregisters g
      rw [he]
      exact h

theorem Lapsed.run {calls : List KeyCall}
    (h : Lapsed g workerId keyId) (hcalls : ∀ call ∈ calls,
      ¬ call.Reinstates crypto workerId keyId) :
    Lapsed (runKeyCalls crypto g calls) workerId keyId := by
  induction calls generalizing g with
  | nil => exact h
  | cons call rest ih =>
    exact ih (h.apply (hcalls call List.mem_cons_self))
      fun c hc => hcalls c (List.mem_cons_of_mem _ hc)

def KeyCall.Revokes (workerId keyId : String) (call : KeyCall) : Prop :=
  call = .revoke workerId keyId ∨ call = .revokeWorker workerId

theorem Lapsed.of_revokes (h : call.Revokes workerId keyId) (g : ResultSigningKeyRegistry) :
    Lapsed (call.apply crypto g) workerId keyId := by
  intro r hr hof now hvalid
  obtain rfl | rfl := h
  all_goals
    obtain ⟨k, -, rfl⟩ := List.mem_map.mp hr
    split at hvalid
    · exact absurd hvalid.1 (by simp)
    · rename_i hk
      rw [if_neg hk] at hof
      simp_all [ResultSigningKeyRecord.isOf]

theorem KeyCall.Reinstates.lookup
    (h : call.Reinstates crypto workerId keyId) (g : ResultSigningKeyRegistry) :
    ∃ now r, (call.apply crypto g).lookup workerId keyId now = .ok r := by
  obtain ⟨r, hrecord, hregisters, hof, now, hvalid⟩ := h
  refine ⟨now, r, ResultSigningKeyRegistry.lookup_ok.mpr ⟨?_, hvalid⟩⟩
  rw [KeyCall.apply_of_record hrecord, ResultSigningKeyRegistry.register_eq hregisters]
  obtain ⟨rfl, rfl⟩ : r.workerId = workerId ∧ r.keyId = keyId := by
    simpa [ResultSigningKeyRecord.isOf] using hof
  -- The others under this key id are gone, so the search comes to the new record.
  have hothers : (g.keys.filter fun k => !k.isOf r.workerId r.keyId).find?
      (fun k => k.isOf r.workerId r.keyId) = none := by
    rw [List.find?_eq_none]
    intro k hk
    simpa using (List.mem_filter.mp hk).2
  simp [Except.toOption, List.find?_append, hothers, hof]

/-- After a revocation the key is never again looked up as valid, just if no later call registers
a key under the same worker and key id that passes the checks and is valid at some time. -/
theorem revocation_lasts_iff {crypto : Crypto} {workerId keyId : String} {call : KeyCall}
    (h : call.Revokes workerId keyId) (g : ResultSigningKeyRegistry) (later : List KeyCall) :
    (∀ calls, calls <+: later → ∀ now r,
      (runKeyCalls crypto (call.apply crypto g) calls).lookup workerId keyId now ≠ .ok r) ↔
      ∀ c ∈ later, ¬ c.Reinstates crypto workerId keyId := by
  constructor
  · intro hnever c hc hreinstates
    obtain ⟨before, after, rfl⟩ := List.append_of_mem hc
    obtain ⟨now, r, hlookup⟩ :=
      hreinstates.lookup (runKeyCalls crypto (call.apply crypto g) before)
    refine hnever (before ++ [c]) ?_ now r ?_
    · exact ⟨after, by simp⟩
    · simpa [runKeyCalls] using hlookup
  · intro hlater calls hcalls now r
    have hlapsed : Lapsed (runKeyCalls crypto (call.apply crypto g) calls) workerId keyId :=
      (Lapsed.of_revokes h g).run fun c hc => hlater c (hcalls.subset hc)
    exact hlapsed.lookup now r

end

namespace Demo

/-- Cryptography that takes every key and hashes all to one text. -/
def crypto : Crypto where
  keyFault := fun _ => none
  verifies := fun _ _ _ => true
  sha256Hex := fun _ => "5feceb66ffc86f38d952786c6d696c79"

def publicKeyHex : String :=
  "d75a980182b10ab7d54bfed3c964073a0ee172f3daa62325af021a68f707511a"

def firstResponse : KeyCall := .chatResponse "worker" (some publicKeyHex) 0

def keyId : String := "rsk_5feceb66ffc86f38"

def registered : ResultSigningKeyRegistry := firstResponse.apply crypto .empty

end Demo
open Demo

theorem revocation_lasts_revoked_again :
    (registered.lookup "worker" keyId 0).isOk = true ∧
      ∀ calls, calls <+: [KeyCall.revokeWorker "worker"] → ∀ now r, (runKeyCalls crypto
          ((KeyCall.revoke "worker" keyId).apply crypto registered) calls).lookup
            "worker" keyId now ≠ .ok r := by
  refine ⟨by decide +kernel,
    (revocation_lasts_iff (.inl rfl) registered [.revokeWorker "worker"]).mpr ?_⟩
  intro c hc h
  obtain ⟨r, hrecord, -⟩ := h
  cases List.mem_singleton.mp hc
  cases hrecord

/-- The key is on file and is revoked; the worker's next chat response makes it valid again. -/
theorem chat_response_reinstates :
    (registered.lookup "worker" keyId 0).isOk = true ∧ (registered.revoke "worker" keyId).2 = true ∧
      ((registered.revoke "worker" keyId).1.lookup "worker" keyId 0).isOk = false ∧
      (((KeyCall.chatResponse "worker" (some publicKeyHex) 60).apply crypto
        (registered.revoke "worker" keyId).1).lookup "worker" keyId 60).isOk = true := by
  decide +kernel

end Tetonic.Fabric
