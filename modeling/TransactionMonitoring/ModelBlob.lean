import Mathlib.Data.List.Nodup
import Mathlib.Logic.Function.Basic
import TransactionMonitoring.Base64
import TransactionMonitoring.Bech32
import TransactionMonitoring.Dictionary
import TransactionMonitoring.Runs

/-! Cluster models as they are stored.

A model is pickled, so a blob is verified before it is loaded: a text of four parts, of which the third
authenticates what the fourth holds.  Keys are rotated by a restart.  HMAC is a parameter, and so is
joblib, of which it is known that it loads what it dumped.
-/
namespace TransactionMonitoring.ModelBlob
open Bech32 Runs

abbrev Text := List Char

structure Joblib (Model : Type) where
  dump : Model → List UInt8
  load : List UInt8 → Option Model
  load_dump : ∀ model, load (dump model) = some model

/-- `text.split(sep, most)`. -/
def splitMost (sep : Char) : ℕ → Text → List Text
  | 0, text => [text]
  | most + 1, text =>
      if sep ∈ text then text.takeWhile (· ≠ sep) :: splitMost sep most ((text.dropWhile (· ≠ sep)).drop 1) else [text]

def blobPrefix : Text := "tms-model".toList

def blobVersion : Text := "1".toList

def unsignedDigest : Text := "unsigned".toList

/-- Why a blob is not loaded; the first three are a `ModelIntegrityError`. -/
inductive Unusable where
  | predates
  | unverified
  | keysMissing
  /-- Base64 that breaks off, or a digest that cannot be compared. -/
  | undecodable
  | unpicklable
deriving DecidableEq, Repr

/-- `_signing_keys`. -/
def signingKeys (raw : Text) : List Text :=
  ((raw.splitOn ',').map (WhiteSpace.stripOf WhiteSpace.isSpace)).filter (· ≠ [])

section
variable {Model : Type} (joblib : Joblib Model) (hmac : Text → List UInt8 → List UInt8)

/-- `_digest`. -/
def digestOf (payload : List UInt8) (key : Text) : Text := bytesHex ((hmac key payload).map UInt8.toNat)

def serializeModel (raw : Text) (model : Model) : Text :=
  let payload := joblib.dump model
  -- The first key signs.
  let digest := match signingKeys raw with
    | [] => unsignedDigest
    | key :: _ => digestOf hmac payload key
  blobPrefix ++ ':' :: (blobVersion ++ ':' :: (digest ++ ':' :: Base64.encode payload))

/-- The part of `deserialize_model` before `joblib.load`: what is loaded. -/
def verifiedPayload (raw blob : Text) : Except Unusable (List UInt8) :=
  match splitMost ':' 3 blob with
  | [front, version, digest, b64] =>
      if front ≠ blobPrefix ∨ version ≠ blobVersion then .error .predates
      else
        match Base64.decode b64 with
        | none => .error .undecodable
        | some payload =>
            if signingKeys raw ≠ [] then
              -- `compare_digest` takes ASCII only.
              if ¬ digest.all (·.toNat < 128) then .error .undecodable
              else if (signingKeys raw).any fun key => digest = digestOf hmac payload key then .ok payload
              else .error .unverified
            else if digest ≠ unsignedDigest then .error .keysMissing
            else .ok payload
  | _ => .error .predates

def deserializeModel (raw blob : Text) : Except Unusable Model :=
  match verifiedPayload hmac raw blob with
  | .error unusable => .error unusable
  | .ok payload =>
      match joblib.load payload with
      | none => .error .unpicklable
      | some model => .ok model

end

/-! What is written is read back. -/

theorem splitMost_append {sep : Char} {front rest : Text} (free : sep ∉ front) (most : ℕ) :
    splitMost sep (most + 1) (front ++ sep :: rest) = front :: splitMost sep most rest := by
  have stays : ∀ char ∈ front, decide (char ≠ sep) = true := by
    intro char member
    refine decide_eq_true ?_
    rintro rfl
    exact free member
  rw [splitMost, if_pos (List.mem_append_right _ List.mem_cons_self), List.takeWhile_append_of_pos stays,
    List.dropWhile_append_of_pos stays]
  simp

/-- A digest is made of these. -/
theorem mem_bytesHex {raw : List ℕ} {char : Char} (member : char ∈ bytesHex raw) :
    char ∈ "0123456789abcdef".toList := by
  have digit : ∀ value, hexDigit value ∈ "0123456789abcdef".toList := by
    intro value
    rw [hexDigit, List.getD_eq_getElem?_getD]
    cases found : "0123456789abcdef".toList[value]? with
    | none => decide
    | some digit => exact List.mem_of_getElem? found
  obtain ⟨byte, _, among⟩ := List.mem_flatMap.mp member
  obtain rfl | among := List.mem_cons.mp among
  · exact digit _
  · rw [List.mem_singleton.mp among]
    exact digit _

section
variable {Model : Type} {joblib : Joblib Model} {hmac : Text → List UInt8 → List UInt8} {payload : List UInt8}
  {key : Text}

theorem digestOf_free {char : Char} (foreign : char ∉ "0123456789abcdef".toList) : char ∉ digestOf hmac payload key :=
  fun member => foreign (mem_bytesHex member)

theorem digestOf_ne_unsigned : digestOf hmac payload key ≠ unsignedDigest := by
  intro same
  have member : 'u' ∈ digestOf hmac payload key := by
    rw [same]
    decide
  exact digestOf_free (by decide) member

theorem digestOf_ascii : (digestOf hmac payload key).all (·.toNat < 128) = true := by
  have ascii : ("0123456789abcdef".toList.all fun char => char.toNat < 128) = true := by decide
  exact List.all_eq_true.mpr fun char member => List.all_eq_true.mp ascii char (mem_bytesHex member)

/-- The digest a model is stored under. -/
def ownDigest (hmac : Text → List UInt8 → List UInt8) (raw : Text) (payload : List UInt8) : Text :=
  match signingKeys raw with
  | [] => unsignedDigest
  | key :: _ => digestOf hmac payload key

/-- The parts of a stored blob. -/
theorem split_serializeModel (raw : Text) (model : Model) :
    splitMost ':' 3 (serializeModel joblib hmac raw model) =
      [blobPrefix, blobVersion, ownDigest hmac raw (joblib.dump model), Base64.encode (joblib.dump model)] := by
  have free : ':' ∉ ownDigest hmac raw (joblib.dump model) := by
    unfold ownDigest
    split
    · decide
    · exact digestOf_free (by decide)
  have shape : serializeModel joblib hmac raw model = blobPrefix ++ ':' :: (blobVersion ++
      ':' :: (ownDigest hmac raw (joblib.dump model) ++ ':' :: Base64.encode (joblib.dump model))) := rfl
  rw [shape, splitMost_append (by decide), splitMost_append (by decide), splitMost_append free, splitMost]

/-- A stored model survives a change of the keys: it was not signed and no key is configured, or the key that signed it,
or one that would have signed it alike, still is. -/
def Survives (joblib : Joblib Model) (hmac : Text → List UInt8 → List UInt8) (raw rotated : Text) (model : Model) :
    Prop :=
  match signingKeys raw with
  | [] => signingKeys rotated = []
  | key :: _ => ∃ other ∈ signingKeys rotated, digestOf hmac (joblib.dump model) other =
      digestOf hmac (joblib.dump model) key

theorem verifiedPayload_serializeModel (raw rotated : Text) (model : Model)
    [Decidable (Survives joblib hmac raw rotated model)] :
    verifiedPayload hmac rotated (serializeModel joblib hmac raw model) =
      if Survives joblib hmac raw rotated model then .ok (joblib.dump model)
      else if signingKeys rotated = [] then .error .keysMissing else .error .unverified := by
  rw [verifiedPayload, split_serializeModel]
  dsimp only
  rw [if_neg (by simp), Base64.decode_encode]
  dsimp only
  cases signed : signingKeys raw with
  | nil =>
    have own : ownDigest hmac raw (joblib.dump model) = unsignedDigest := by
      rw [ownDigest, signed]
    have survives : Survives joblib hmac raw rotated model ↔ signingKeys rotated = [] := by
      rw [Survives, signed]
    rw [own]
    by_cases bare : signingKeys rotated = []
    · rw [if_neg (not_not.mpr bare), if_neg (not_not.mpr rfl), if_pos (survives.mpr bare)]
    · have alien :
          ¬ (signingKeys rotated).any (fun key => unsignedDigest = digestOf hmac (joblib.dump model) key) = true := by
        rw [List.any_eq_true]
        rintro ⟨key, _, same⟩
        exact digestOf_ne_unsigned (of_decide_eq_true same).symm
      rw [if_pos bare, if_neg (not_not.mpr (by decide)), if_neg alien, if_neg (fun yes => bare (survives.mp yes)),
        if_neg bare]
  | cons key others =>
    have own : ownDigest hmac raw (joblib.dump model) = digestOf hmac (joblib.dump model) key := by
      rw [ownDigest, signed]
    have survives : Survives joblib hmac raw rotated model ↔ (signingKeys rotated).any (fun other =>
        digestOf hmac (joblib.dump model) key = digestOf hmac (joblib.dump model) other) = true := by
      rw [Survives, signed, List.any_eq_true]
      refine exists_congr fun other => and_congr_right fun _ => ?_
      rw [decide_eq_true_iff]
      exact eq_comm
    rw [own]
    by_cases bare : signingKeys rotated = []
    · have gone : ¬ Survives joblib hmac raw rotated model := by
        rw [survives, bare]
        exact Bool.false_ne_true
      rw [if_neg (not_not.mpr bare), if_pos digestOf_ne_unsigned, if_neg gone, if_pos bare]
    · rw [if_pos bare, if_neg (not_not.mpr digestOf_ascii)]
      by_cases yes : Survives joblib hmac raw rotated model
      · rw [if_pos (survives.mp yes), if_pos yes]
      · rw [if_neg (fun found => yes (survives.mpr found)), if_neg yes, if_neg bare]

open Classical in
/-- A model comes back as it was stored as long as the key that signed it is among those configured, and from then on
never again: a rotation retires exactly what no remaining key signed, and says why. -/
theorem deserialize_serialize (joblib : Joblib Model) (hmac : Text → List UInt8 → List UInt8) (raw rotated : Text)
    (model : Model) :
    deserializeModel joblib hmac rotated (serializeModel joblib hmac raw model) =
      if Survives joblib hmac raw rotated model then .ok model
      else if signingKeys rotated = [] then .error .keysMissing else .error .unverified := by
  rw [deserializeModel, verifiedPayload_serializeModel]
  by_cases survives : Survives joblib hmac raw rotated model
  · rw [if_pos survives, if_pos survives]
    dsimp only
    rw [joblib.load_dump]
  · rw [if_neg survives, if_neg survives]
    by_cases bare : signingKeys rotated = []
    · rw [if_pos bare, if_pos bare]
    · rw [if_neg bare, if_neg bare]

end

/-! The service that stores and loads models. -/

def modelCacheMax : ℕ := 8

/-- The worker threads `ι` of one process, and the table they read. -/
structure State (ι Model : Type) where
  /-- `MODEL_SIGNING_KEYS`. -/
  raw : Text
  /-- The blobs of `cluster_models`. -/
  stored : String → Option Text := fun _ => none
  cache : List (String × Model) := []
  /-- What a thread has loaded and not yet cached. -/
  loading : ι → Option (String × Model) := fun _ => none
  /-- Bookkeeping: the models that were fitted, the payloads that were unpickled, and what the threads were served. -/
  fitted : List (String × Model) := []
  unpickled : List (List UInt8) := []
  served : List (String × Model) := []

inductive Event (ι Model : Type) where
  /-- A fit, which mints its identifier. -/
  | saves (modelId : String) (model : Model)
  /-- Someone with access to the table. -/
  | overwrites (modelId : String) (blob : Option Text)
  | restarts (raw : Text)
  /-- `load_cluster_model`, up to the second lock, -/
  | begins (thread : ι) (modelId : String)
  /-- and behind it. -/
  | finishes (thread : ι)

/-- The cache with one more model; the oldest go. -/
def remember {Model : Type} (cache : List (String × Model)) (modelId : String) (model : Model) :
    List (String × Model) :=
  let cache := Dictionary.insert (· == ·) cache modelId model
  cache.drop (cache.length - modelCacheMax)

section
variable {ι Model : Type} [DecidableEq ι] (joblib : Joblib Model) (hmac : Text → List UInt8 → List UInt8)

def step (state : State ι Model) : Event ι Model → Option (State ι Model)
  | .saves modelId model =>
      if modelId ∈ state.fitted.map Prod.fst then none
      else some { state with
        stored := Function.update state.stored modelId (some (serializeModel joblib hmac state.raw model))
        fitted := state.fitted ++ [(modelId, model)] }
  | .overwrites modelId blob => some { state with stored := Function.update state.stored modelId blob }
  | .restarts raw => some { state with raw, cache := [], loading := fun _ => none }
  | .begins thread modelId =>
      if state.loading thread = none then
        match state.cache.find? (·.1 = modelId) with
        | some (_, model) => some { state with served := state.served ++ [(modelId, model)] }
        | none =>
            match state.stored modelId with
            | none => none
            | some blob =>
                match verifiedPayload hmac state.raw blob with
                | .error _ => some state
                | .ok payload =>
                    let unpickled := state.unpickled ++ [payload]
                    match joblib.load payload with
                    | none => some { state with unpickled }
                    | some model =>
                        let loading := Function.update state.loading thread (some (modelId, model))
                        some { state with unpickled, loading }
      else none
  | .finishes thread =>
      match state.loading thread with
      | none => none
      | some (modelId, model) =>
          some { state with
            cache := remember state.cache modelId model
            loading := Function.update state.loading thread none
            served := state.served ++ [(modelId, model)] }

end

section
variable {Model : Type} {joblib : Joblib Model} {hmac : Text → List UInt8 → List UInt8}

theorem mem_remember {cache : List (String × Model)} {modelId : String} {model : Model} {entry : String × Model}
    (member : entry ∈ remember cache modelId model) : entry ∈ cache ∨ entry = (modelId, model) := by
  have inserted : entry ∈ Dictionary.insert (· == ·) cache modelId model := List.mem_of_mem_drop member
  rw [Dictionary.insert] at inserted
  split at inserted
  · obtain ⟨old, among, rfl⟩ := List.mem_map.mp inserted
    split
    · next same =>
      rw [beq_iff_eq.mp same]
      exact .inr rfl
    · exact .inl among
  · obtain old | new := List.mem_append.mp inserted
    · exact .inl old
    · exact .inr (List.mem_singleton.mp new)

theorem length_remember (cache : List (String × Model)) (modelId : String) (model : Model) :
    (remember cache modelId model).length ≤ modelCacheMax := by
  rw [remember, List.length_drop]
  omega

/-- The blob authenticates a payload under a key. -/
def Verifies (hmac : Text → List UInt8 → List UInt8) (key : Text) (payload : List UInt8) (blob : Text) : Prop :=
  ∃ b64, splitMost ':' 3 blob = [blobPrefix, blobVersion, digestOf hmac payload key, b64] ∧
    Base64.decode b64 = some payload

/-- Where keys are configured, what is loaded is authenticated under one of them. -/
theorem verifies_of_verifiedPayload {raw blob : Text} {payload : List UInt8} (configured : signingKeys raw ≠ [])
    (verified : verifiedPayload hmac raw blob = .ok payload) :
    ∃ key ∈ signingKeys raw, Verifies hmac key payload blob := by
  rw [verifiedPayload] at verified
  simp only [if_pos configured] at verified
  split at verified
  · next front version digest b64 parts =>
    split at verified
    · cases verified
    · next current =>
      rw [not_or, not_not, not_not] at current
      obtain ⟨rfl, rfl⟩ := current
      split at verified
      · cases verified
      · next decoded =>
        split at verified
        · cases verified
        · split at verified
          · next found =>
            cases verified
            obtain ⟨key, among, same⟩ := List.any_eq_true.mp found
            rw [of_decide_eq_true same] at parts
            exact ⟨key, among, b64, parts, decoded⟩
          · cases verified
  · cases verified

/-- A stored blob authenticates its model and nothing else. -/
theorem eq_dump_of_verifies {raw key : Text} {model : Model} {payload : List UInt8}
    (verifies : Verifies hmac key payload (serializeModel joblib hmac raw model)) : payload = joblib.dump model := by
  obtain ⟨b64, parts, decoded⟩ := verifies
  rw [split_serializeModel] at parts
  obtain ⟨-, rfl⟩ : _ ∧ Base64.encode (joblib.dump model) = b64 := by
    simpa using parts
  rw [Base64.decode_encode] at decoded
  exact (Option.some.inj decoded).symm

end

section
variable {ι Model : Type} [DecidableEq ι] {joblib : Joblib Model} {hmac : Text → List UInt8 → List UInt8}
  {state next : State ι Model} {event : Event ι Model}

/-- What a step loads and serves, as far as it matters. -/
inductive Moved (joblib : Joblib Model) (hmac : Text → List UInt8 → List UInt8) (state next : State ι Model) :
    Prop where
  | served (entry : String × Model) (held : entry ∈ state.cache)
      (same : next = { state with served := state.served ++ [entry] })
  | refused (same : next = state)
  | broken (modelId : String) (blob : Text) (payload : List UInt8) (there : state.stored modelId = some blob)
      (verified : verifiedPayload hmac state.raw blob = .ok payload) (unreadable : joblib.load payload = none)
      (same : next = { state with unpickled := state.unpickled ++ [payload] })
  | loaded (thread : ι) (modelId : String) (blob : Text) (payload : List UInt8) (model : Model)
      (there : state.stored modelId = some blob) (verified : verifiedPayload hmac state.raw blob = .ok payload)
      (read : joblib.load payload = some model)
      (same : next = { state with
        unpickled := state.unpickled ++ [payload]
        loading := Function.update state.loading thread (some (modelId, model)) })

theorem moved_of_begins {thread : ι} {modelId : String}
    (stepped : step joblib hmac state (.begins thread modelId) = some next) :
    Moved joblib hmac state next := by
  simp only [step] at stepped
  split at stepped
  · split at stepped
    · next found =>
      cases stepped
      refine .served _ (List.mem_of_find?_eq_some found) ?_
      have same := List.find?_some found
      rw [← of_decide_eq_true same]
    · split at stepped
      · cases stepped
      · next blob there =>
        split at stepped
        · cases stepped
          exact .refused rfl
        · next payload verified =>
          split at stepped
          · next unreadable =>
            cases stepped
            exact .broken modelId blob payload there verified unreadable rfl
          · next model read =>
            cases stepped
            exact .loaded thread modelId blob payload model there verified read rfl
  · cases stepped

/-- What holds while nobody writes to the table but the service. -/
structure Faithful (joblib : Joblib Model) (hmac : Text → List UInt8 → List UInt8) (state : State ι Model) : Prop where
  stored : ∀ modelId blob, state.stored modelId = some blob →
    ∃ raw model, (modelId, model) ∈ state.fitted ∧ blob = serializeModel joblib hmac raw model
  cached : ∀ entry ∈ state.cache, entry ∈ state.fitted
  loading : ∀ thread entry, state.loading thread = some entry → entry ∈ state.fitted
  served : ∀ entry ∈ state.served, entry ∈ state.fitted
  unique : (state.fitted.map Prod.fst).Nodup
  bounded : state.cache.length ≤ modelCacheMax

/-- Nobody else writes to the table. -/
def Alone (_ : State ι Model) : Event ι Model → Prop
  | .overwrites _ _ => False
  | .saves _ _ | .restarts _ | .begins _ _ | .finishes _ => True

instance (state : State ι Model) (event : Event ι Model) : Decidable (Alone state event) :=
  match event with
  | .overwrites _ _ => isFalse id
  | .saves _ _ | .restarts _ | .begins _ _ | .finishes _ => isTrue trivial

theorem Faithful.kept (faithful : Faithful joblib hmac state) (alone : Alone state event)
    (stepped : step joblib hmac state event = some next) : Faithful joblib hmac next := by
  cases event with
  | overwrites modelId blob => exact alone.elim
  | saves modelId model =>
    simp only [step] at stepped
    split at stepped
    · cases stepped
    · next fresh =>
      cases stepped
      have grows : ∀ {entry : String × Model}, entry ∈ state.fitted → entry ∈ state.fitted ++ [(modelId, model)] :=
        fun member => List.mem_append_left _ member
      refine ⟨fun other blob there => ?_, fun entry member => grows (faithful.cached entry member),
        fun thread entry there => grows (faithful.loading thread entry there),
        fun entry member => grows (faithful.served entry member), ?_, faithful.bounded⟩
      · dsimp only at there
        by_cases own : other = modelId
        · subst own
          rw [Function.update_self] at there
          cases there
          exact ⟨state.raw, model, List.mem_append_right _ List.mem_cons_self, rfl⟩
        · rw [Function.update_of_ne own] at there
          obtain ⟨raw, found, member, same⟩ := faithful.stored other blob there
          exact ⟨raw, found, grows member, same⟩
      · rw [List.map_append]
        exact List.nodup_append_comm.mp (List.nodup_cons.mpr ⟨fresh, faithful.unique⟩)
  | restarts raw =>
    cases stepped
    exact ⟨faithful.stored, List.forall_mem_nil _, fun thread entry none => (by cases none), faithful.served,
      faithful.unique, Nat.zero_le _⟩
  | begins thread modelId =>
    cases moved_of_begins stepped with
    | served entry held same =>
      subst same
      refine ⟨faithful.stored, faithful.cached, faithful.loading, fun other member => ?_, faithful.unique,
        faithful.bounded⟩
      obtain old | new := List.mem_append.mp member
      · exact faithful.served other old
      · rw [List.mem_singleton.mp new]
        exact faithful.cached entry held
    | refused same =>
      subst same
      exact faithful
    | broken modelId blob payload there verified unreadable same =>
      subst same
      exact ⟨faithful.stored, faithful.cached, faithful.loading, faithful.served, faithful.unique, faithful.bounded⟩
    | loaded thread modelId blob payload model there verified read same =>
      subst same
      -- What is loaded is what was dumped, as the blob is one that was saved.
      obtain ⟨raw, own, member, rfl⟩ := faithful.stored modelId blob there
      have dumped : payload = joblib.dump own := by
        classical
        rw [verifiedPayload_serializeModel] at verified
        split at verified
        · cases verified
          rfl
        · split at verified
          · cases verified
          · cases verified
      rw [dumped, joblib.load_dump] at read
      cases read
      refine ⟨faithful.stored, faithful.cached, fun other entry held => ?_, faithful.served, faithful.unique,
        faithful.bounded⟩
      dsimp only at held
      by_cases mine : other = thread
      · subst mine
        rw [Function.update_self] at held
        cases held
        exact member
      · rw [Function.update_of_ne mine] at held
        exact faithful.loading other entry held
  | finishes thread =>
    simp only [step] at stepped
    split at stepped
    · cases stepped
    · next modelId model held =>
      cases stepped
      have member := faithful.loading thread _ held
      refine ⟨faithful.stored, fun entry among => ?_, fun other entry there => ?_, fun entry among => ?_,
        faithful.unique, length_remember _ _ _⟩
      · obtain old | rfl := mem_remember among
        · exact faithful.cached entry old
        · exact member
      · dsimp only at there
        by_cases mine : other = thread
        · subst mine
          rw [Function.update_self] at there
          cases there
        · rw [Function.update_of_ne mine] at there
          exact faithful.loading other entry there
      · obtain old | new := List.mem_append.mp among
        · exact faithful.served entry old
        · rw [List.mem_singleton.mp new]
          exact member

/-- The cache is never stale: whatever threads load at once, whatever is evicted and however the keys are rotated, the
model that is served under an identifier is the one that was fitted under it, and the cache keeps within its bound. -/
theorem served_as_fitted {raw : Text} {events : List (Event ι Model)}
    (alone : EveryStep (step joblib hmac) Alone { raw } events)
    (reached : run (step joblib hmac) { raw } events = some state) :
    (∀ modelId model, (modelId, model) ∈ state.served →
      ∀ fitted, (modelId, fitted) ∈ state.fitted ↔ fitted = model) ∧ state.cache.length ≤ modelCacheMax := by
  have initially : Faithful joblib hmac ({ raw } : State ι Model) :=
    ⟨fun modelId blob none => (by cases none), List.forall_mem_nil _, fun thread entry none => (by cases none),
      List.forall_mem_nil _, .nil, Nat.zero_le _⟩
  have faithful := invariant_of_step (step joblib hmac) (fun met holds stepped => Faithful.kept holds met stepped)
    initially alone reached
  refine ⟨fun modelId model member fitted => ⟨fun other => ?_, fun same => ?_⟩, faithful.bounded⟩
  · have own := faithful.served _ member
    exact congrArg Prod.snd (List.inj_on_of_nodup_map faithful.unique other own rfl)
  · rw [same]
    exact faithful.served _ member

/-! Somebody else writes to the table. -/

/-- Under the keys that are kept secret the blob authenticates only what the service has signed. -/
def Genuine (joblib : Joblib Model) (hmac : Text → List UInt8 → List UInt8) (secret : Text → Prop)
    (fitted : List (String × Model)) (blob : Text) : Prop :=
  ∀ key payload, secret key → Verifies hmac key payload blob → ∃ fit ∈ fitted, joblib.dump fit.2 = payload

/-- Keys are configured, and all of them are secret. -/
def Guarded (secret : Text → Prop) (raw : Text) : Prop := signingKeys raw ≠ [] ∧ ∀ key ∈ signingKeys raw, secret key

/-- Whoever overwrites a blob puts there what it likes, the service's own blobs under other identifiers and parts of
them among it, but has no key to authenticate anything new. -/
def Keyless (joblib : Joblib Model) (hmac : Text → List UInt8 → List UInt8) (secret : Text → Prop)
    (state : State ι Model) : Event ι Model → Prop
  | .overwrites _ blob => ∀ text ∈ blob, Genuine joblib hmac secret state.fitted text
  | .restarts raw => Guarded secret raw
  | .saves _ _ | .begins _ _ | .finishes _ => True

/-- What holds then. -/
structure Untainted (joblib : Joblib Model) (hmac : Text → List UInt8 → List UInt8) (secret : Text → Prop)
    (state : State ι Model) : Prop where
  guarded : Guarded secret state.raw
  stored : ∀ modelId blob, state.stored modelId = some blob → Genuine joblib hmac secret state.fitted blob
  unpickled : ∀ payload ∈ state.unpickled, ∃ fit ∈ state.fitted, joblib.dump fit.2 = payload
  cached : ∀ entry ∈ state.cache, ∃ fit ∈ state.fitted, fit.2 = entry.2
  loading : ∀ thread entry, state.loading thread = some entry → ∃ fit ∈ state.fitted, fit.2 = entry.2
  served : ∀ entry ∈ state.served, ∃ fit ∈ state.fitted, fit.2 = entry.2

theorem Genuine.grows {secret : Text → Prop} {fitted : List (String × Model)} {blob : Text} (fit : String × Model)
    (genuine : Genuine joblib hmac secret fitted blob) : Genuine joblib hmac secret (fitted ++ [fit]) blob := by
  intro key payload hidden verifies
  obtain ⟨own, member, same⟩ := genuine key payload hidden verifies
  exact ⟨own, List.mem_append_left _ member, same⟩

omit [DecidableEq ι] in
/-- What is verified in a state is the dump of a model that was fitted. -/
theorem Untainted.verified {secret : Text → Prop} (untainted : Untainted joblib hmac secret state) {modelId : String}
    {blob : Text} {payload : List UInt8} (there : state.stored modelId = some blob)
    (verified : verifiedPayload hmac state.raw blob = .ok payload) :
    ∃ fit ∈ state.fitted, joblib.dump fit.2 = payload := by
  obtain ⟨key, among, verifies⟩ := verifies_of_verifiedPayload untainted.guarded.1 verified
  exact untainted.stored modelId blob there key payload (untainted.guarded.2 key among) verifies

theorem Untainted.kept {secret : Text → Prop} (untainted : Untainted joblib hmac secret state)
    (keyless : Keyless joblib hmac secret state event) (stepped : step joblib hmac state event = some next) :
    Untainted joblib hmac secret next := by
  cases event with
  | overwrites modelId blob =>
    cases stepped
    refine ⟨untainted.guarded, fun other text there => ?_, untainted.unpickled, untainted.cached, untainted.loading,
      untainted.served⟩
    dsimp only at there
    by_cases own : other = modelId
    · subst own
      rw [Function.update_self] at there
      exact keyless text there
    · rw [Function.update_of_ne own] at there
      exact untainted.stored other text there
  | saves modelId model =>
    simp only [step] at stepped
    split at stepped
    · cases stepped
    · cases stepped
      have grows : ∀ {holds : String × Model → Prop}, (∃ fit ∈ state.fitted, holds fit) →
          ∃ fit ∈ state.fitted ++ [(modelId, model)], holds fit := by
        rintro holds ⟨fit, member, is⟩
        exact ⟨fit, List.mem_append_left _ member, is⟩
      refine ⟨untainted.guarded, fun other blob there => ?_, fun payload member =>
        grows (untainted.unpickled payload member),
        fun entry member => grows (untainted.cached entry member),
        fun thread entry there => grows (untainted.loading thread entry there),
        fun entry member => grows (untainted.served entry member)⟩
      dsimp only at there
      by_cases own : other = modelId
      · subst own
        rw [Function.update_self] at there
        cases there
        intro key payload _ verifies
        exact ⟨_, List.mem_append_right _ List.mem_cons_self, (eq_dump_of_verifies verifies).symm⟩
      · rw [Function.update_of_ne own] at there
        exact (untainted.stored other blob there).grows _
  | restarts raw =>
    cases stepped
    exact ⟨keyless, untainted.stored, untainted.unpickled, List.forall_mem_nil _,
      fun thread entry none => (by cases none), untainted.served⟩
  | begins thread modelId =>
    cases moved_of_begins stepped with
    | served entry held same =>
      subst same
      refine ⟨untainted.guarded, untainted.stored, untainted.unpickled, untainted.cached, untainted.loading,
        fun other member => ?_⟩
      obtain old | new := List.mem_append.mp member
      · exact untainted.served other old
      · rw [List.mem_singleton.mp new]
        exact untainted.cached entry held
    | refused same =>
      subst same
      exact untainted
    | broken modelId blob payload there verified unreadable same =>
      subst same
      refine ⟨untainted.guarded, untainted.stored, fun other member => ?_, untainted.cached, untainted.loading,
        untainted.served⟩
      obtain old | new := List.mem_append.mp member
      · exact untainted.unpickled other old
      · rw [List.mem_singleton.mp new]
        exact untainted.verified there verified
    | loaded thread modelId blob payload model there verified read same =>
      subst same
      obtain ⟨fit, fitted, dumped⟩ := untainted.verified there verified
      refine ⟨untainted.guarded, untainted.stored, fun other member => ?_, untainted.cached, fun other entry held => ?_,
        untainted.served⟩
      · obtain old | new := List.mem_append.mp member
        · exact untainted.unpickled other old
        · rw [List.mem_singleton.mp new]
          exact ⟨fit, fitted, dumped⟩
      · dsimp only at held
        by_cases mine : other = thread
        · subst mine
          rw [Function.update_self] at held
          cases held
          rw [← dumped, joblib.load_dump] at read
          exact ⟨fit, fitted, Option.some.inj read⟩
        · rw [Function.update_of_ne mine] at held
          exact untainted.loading other entry held
  | finishes thread =>
    simp only [step] at stepped
    split at stepped
    · cases stepped
    · next modelId model held =>
      cases stepped
      have known := untainted.loading thread _ held
      refine ⟨untainted.guarded, untainted.stored, untainted.unpickled, fun entry among => ?_,
        fun other entry there => ?_,
        fun entry among => ?_⟩
      · obtain old | rfl := mem_remember among
        · exact untainted.cached entry old
        · exact known
      · dsimp only at there
        by_cases mine : other = thread
        · subst mine
          rw [Function.update_self] at there
          cases there
        · rw [Function.update_of_ne mine] at there
          exact untainted.loading other entry there
      · obtain old | new := List.mem_append.mp among
        · exact untainted.served entry old
        · rw [List.mem_singleton.mp new]
          exact known

/-- Nothing foreign is unpickled: whoever writes to the table without a key, whatever is copied between its rows and
however the keys are rotated, each payload that reaches the unpickler is the dump of a model that the service fitted,
and each model that is served is one of these. -/
theorem nothing_foreign_is_unpickled (secret : Text → Prop) {raw : Text} {events : List (Event ι Model)}
    (guarded : Guarded secret raw) (keyless : EveryStep (step joblib hmac) (Keyless joblib hmac secret) { raw } events)
    (reached : run (step joblib hmac) { raw } events = some state) :
    (∀ payload ∈ state.unpickled, ∃ fit ∈ state.fitted, joblib.dump fit.2 = payload) ∧
    ∀ entry ∈ state.served, ∃ fit ∈ state.fitted, fit.2 = entry.2 := by
  have initially : Untainted joblib hmac secret ({ raw } : State ι Model) :=
    ⟨guarded, fun modelId blob none => (by cases none), List.forall_mem_nil _, List.forall_mem_nil _,
      fun thread entry none => (by cases none), List.forall_mem_nil _⟩
  have untainted := invariant_of_step (step joblib hmac) (fun met holds stepped => Untainted.kept holds met stepped)
    initially keyless reached
  exact ⟨untainted.unpickled, untainted.served⟩

end

/-- A model of one byte. -/
def byte : Joblib UInt8 where
  dump := fun model => [model]
  load := fun payload => payload.head?
  load_dump := fun _ => rfl

def keyed (key : Text) (payload : List UInt8) : List UInt8 := key.map (fun char => UInt8.ofNat char.toNat) ++ payload

/-- Two threads load one model at once, a third finds it cached. -/
theorem served_as_fitted_at_once :
    ∃ state : State ℕ UInt8, run (step byte keyed) { raw := "k".toList }
      [.saves "one" 7, .begins 0 "one", .begins 1 "one",
        .finishes 0, .finishes 1, .begins 2 "one"] = some state ∧ state.served.length = 3 ∧
      (∀ modelId model, (modelId, model) ∈ state.served →
        ∀ fitted, (modelId, fitted) ∈ state.fitted ↔ fitted = model) ∧ state.cache.length ≤ modelCacheMax := by
  have loaded : ∃ state : State ℕ UInt8, run (step byte keyed) { raw := "k".toList } [.saves "one" 7, .begins 0 "one",
      .begins 1 "one", .finishes 0, .finishes 1, .begins 2 "one"] = some state ∧
        state.served.length = 3 := ⟨_, rfl, rfl⟩
  obtain ⟨state, reached, many⟩ := loaded
  exact ⟨state, reached, many, served_as_fitted (by decide) reached⟩

/-- A blob is copied to another row, and loaded from there. -/
theorem nothing_foreign_is_unpickled_of_copy :
    ∃ state : State ℕ UInt8, run (step byte keyed) { raw := "k".toList } [.saves "one" 7,
        .overwrites "two" (some (serializeModel byte keyed "k".toList 7)), .begins 0 "two", .finishes 0] = some state ∧
      state.unpickled.length = 1 ∧
      (∀ payload ∈ state.unpickled, ∃ fit ∈ state.fitted, byte.dump fit.2 = payload) ∧
      ∀ entry ∈ state.served, ∃ fit ∈ state.fitted, fit.2 = entry.2 := by
  have loaded : ∃ state : State ℕ UInt8, run (step byte keyed) { raw := "k".toList } [.saves "one" 7,
      .overwrites "two" (some (serializeModel byte keyed "k".toList 7)), .begins 0 "two", .finishes 0] = some state ∧
      state.unpickled.length = 1 := ⟨_, rfl, rfl⟩
  obtain ⟨state, reached, many⟩ := loaded
  refine ⟨state, reached, many, nothing_foreign_is_unpickled (· = "k".toList) ?_ ?_ reached⟩
  · exact ⟨by decide, by decide⟩
  · refine ⟨trivial, fun next stepped => ⟨?_, fun _ _ => ⟨trivial, fun _ _ => ⟨trivial, fun _ _ => trivial⟩⟩⟩⟩
    cases stepped
    rintro text same key payload - verifies
    cases same
    exact ⟨("one", 7), List.mem_cons_self, (eq_dump_of_verifies verifies).symm⟩

end TransactionMonitoring.ModelBlob
