import CodesSim.Base.Stats

/-!
# Chunks on their way in

A terminal of an express mesh and one of a fat tree keep for each message on its way in how many of
its chunks have arrived and the payload that came with them.  Like a node of a torus it cuts what it
sends into chunks (`numChunks`).
-/

namespace CodesSim

open Function

/-- The number of chunks of a packet or of a message. -/
def numChunks (size chunkSize : ℕ) : ℕ :=
  let n := size / chunkSize
  let n := if size % chunkSize ≠ 0 then n + 1 else n
  if n = 0 then 1 else n

theorem one_le_numChunks (size chunkSize : ℕ) : 1 ≤ numChunks size chunkSize := by
  simp only [numChunks]
  generalize size / chunkSize = n
  split_ifs <;> omega

/-- A message on its way in (`mn_hash_key`, `ftree_hash_key`). -/
structure RankKey where
  messageId : ℕ
  senderId : Lpid
  deriving DecidableEq

/-- What has arrived of a message (`mn_qhash_entry`, `ftree_qhash_entry`); no payload is stored
while `remoteEventData` is empty. -/
structure HashEntry where
  numChunks : ℤ
  remoteEventData : List UInt8

namespace HashEntry

/-- An entry for a message of which nothing has arrived. -/
def empty : HashEntry := ⟨0, []⟩

/-- An entry with the payload of a chunk, if it has none. -/
def withPayload (e : HashEntry) (payload : List UInt8) : HashEntry :=
  { e with remoteEventData := if e.remoteEventData = [] then payload else e.remoteEventData }

/-- The entry of a message with one more chunk; `some` payload is stored if there is none yet. -/
def add (e : HashEntry) (payload : List UInt8) : HashEntry :=
  { e.withPayload payload with numChunks := e.numChunks + 1 }

/-- An entry is the same with a payload if it has one, or if the payload is empty. -/
theorem map_withPayload_iff {entry : Option HashEntry} {payload : List UInt8} :
    (entry.map fun e => e.withPayload payload) = entry ↔
      ∀ e, entry = some e → e.remoteEventData = [] → payload = [] := by
  cases entry with
  | none => exact iff_of_true rfl fun e he => by cases he
  | some e =>
    obtain ⟨num, data⟩ := e
    by_cases hempty : data = []
    · simp [withPayload, hempty]
    · simp [withPayload, hempty]

end HashEntry

/-- `return_tail`, `n` times; `none` where the list is too short. -/
def returnTails {α : Type} (n : ℕ) (l : List α) : Option (List α) :=
  if n ≤ l.length then some (l.take (l.length - n)) else none

theorem returnTails_append {α : Type} (l l' : List α) :
    returnTails l'.length (l ++ l') = some l := by
  simp [returnTails]

theorem returnTails_singleton {α : Type} (l : List α) (c : α) : returnTails 1 (l ++ [c]) = some l :=
  returnTails_append l [c]

/-- An entry that gets the value it has. -/
theorem update_back {α β : Type*} [DecidableEq α] (f : α → β) (q : α) {w : β} (h : w = f q) :
    update f q w = f := by
  rw [h, update_eq_self]

end CodesSim
