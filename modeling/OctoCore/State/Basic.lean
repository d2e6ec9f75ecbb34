import OctoCore.DataTypes
import Mathlib.Data.Nat.Bitwise

/-!
# The state object and its object-id allocator

`State.h` declares the state a command acts on: a session id, an atomic counter of
object ids, and the undo and redo deques of `CommandRecord`s, beside the data of the
subclass.  `State.cpp` builds it and mints object ids.

A deque is a list whose back is its last element.  Every method of the state is an
`EStateM` computation: a C++ exception leaves the object as the method left it, so a
call that raises still has a next state.
-/

namespace Octo

/-- `State::SessionId`. -/
abbrev SessionId := UInt16

/-- `State::CommandRecord`: the id of an admitted command, its arguments, and the
result map its forward run wrote. -/
structure State.CommandRecord where
  commandId : CommandId
  args : Map
  result : Map

/-- `Octo::State`, with `data` for the members of the subclass. -/
structure State (D : Type) where
  mSessionId : SessionId
  mNextObjectId : ObjectId
  mUndo : List State.CommandRecord
  mRedo : List State.CommandRecord
  data : D

/-- How a call into OctoCore ends when it does not return: a C++ exception, or the
undefined behaviour of calling through the null `Entry*` that `getCommand` gives
for an unknown command id. -/
inductive Fault where
  | exception (exception : Exception)
  | nullEntry

/-- The state a call leaves behind, whether it returned or raised. -/
def stateAfter {ε σ α : Type} : EStateM.Result ε σ α → σ
  | .ok _ state => state
  | .error _ state => state

@[simp] theorem stateAfter_ok {ε σ α : Type} (value : α) (state : σ) :
    stateAfter (EStateM.Result.ok value state : EStateM.Result ε σ α) = state := rfl

@[simp] theorem stateAfter_error {ε σ α : Type} (error : ε) (state : σ) :
    stateAfter (EStateM.Result.error error state : EStateM.Result ε σ α) = state := rfl

/-- The id `(K << 48) | n` of the layout `getNextObjectId` documents: two zero bits,
the session id `K`, and the counter `n` in the low 48 bits. -/
def objectIdOf (sessionId : SessionId) (count : Nat) : ObjectId :=
  BitVec.ofNat 64 sessionId.toNat <<< 48 ||| BitVec.ofNat 64 count

namespace State

variable {D : Type}

/-- `State::State(SessionId)`, with `data` for what the subclass constructor builds.
The counter starts at `((int64_t)sessionId << 48) | 1`; the body then rejects the
session ids that satisfy `m_session_id & 4<<14`, computed in `int`. -/
def new (sessionId : SessionId) (data : D) : Except Exception (State D) :=
  if sessionId.toNat &&& 4 <<< 14 ≠ 0 then
    .error (.stateException "Invalid session ID. Session ID must be 14 bytes or smaller.")
  else
    .ok { mSessionId := sessionId,
          mNextObjectId := BitVec.ofNat 64 sessionId.toNat <<< 48 ||| 1,
          mUndo := [], mRedo := [], data }

/-- The exception `getNextObjectId` raises once a session has used up its ids. -/
def objectIdsExhausted : Fault :=
  .exception (.stateException "Reached limit of available object IDs for this session.")

/-- `State::getNextObjectId`: fetch and increment the counter, then raise if the
fetched id no longer carries the session id above bit 48.  The shift is the
arithmetic shift of `int64_t`. -/
def getNextObjectId : EStateM Fault (State D) ObjectId := fun state =>
  let objectId := state.mNextObjectId
  let state := { state with mNextObjectId := objectId + 1 }
  if (objectId.sshiftRight 48).toInt ≠ state.mSessionId.toNat then
    .error objectIdsExhausted state
  else
    .ok objectId state

/-- The state after `count` calls of `getNextObjectId`, each of which advances the
counter whether it returns or raises. -/
def afterObjectIdCalls : Nat → State D → State D
  | 0, state => state
  | count + 1, state => afterObjectIdCalls count (stateAfter (getNextObjectId state))

/-! ## The constructor's check -/

/-- `4<<14` is `2^16`, a bit no `uint16_t` has, so the check never fires. -/
theorem sessionId_and_four_shiftLeft (sessionId : SessionId) :
    sessionId.toNat &&& 4 <<< 14 = 0 := by
  rw [show 4 <<< 14 = 2 ^ 16 from rfl, Nat.and_two_pow,
    Nat.testBit_lt_two_pow sessionId.toNat_lt_size]
  rfl

/-- The constructor accepts every session id. -/
theorem new_eq (sessionId : SessionId) (data : D) :
    State.new sessionId data =
      .ok { mSessionId := sessionId, mNextObjectId := objectIdOf sessionId 1,
            mUndo := [], mRedo := [], data } := by
  rw [State.new, sessionId_and_four_shiftLeft, if_neg (by decide)]
  rfl

/-! ## Layout of minted ids -/

theorem toNat_objectIdOf {sessionId : SessionId} {count : Nat} (bound : count < 2 ^ 48) :
    (objectIdOf sessionId count).toNat = sessionId.toNat * 2 ^ 48 + count := by
  have session : sessionId.toNat < 2 ^ 16 := sessionId.toNat_lt_size
  rw [objectIdOf, BitVec.toNat_or, BitVec.toNat_shiftLeft, BitVec.toNat_ofNat,
    BitVec.toNat_ofNat, Nat.shiftLeft_eq, Nat.mod_eq_of_lt (by omega : sessionId.toNat < 2 ^ 64),
    Nat.mod_eq_of_lt (by omega), Nat.mod_eq_of_lt (by omega : count < 2 ^ 64), Nat.mul_comm,
    ← Nat.mul_add_lt_is_or bound]

/-- Below `2^63` the arithmetic shift of `int64_t` is division by `2^48`. -/
theorem toInt_sshiftRight_48 {objectId : ObjectId} (positive : objectId.toNat < 2 ^ 63) :
    (objectId.sshiftRight 48).toInt = (objectId.toNat / 2 ^ 48 : Nat) := by
  have msbFalse : objectId.msb = false :=
    BitVec.msb_eq_false_iff_two_mul_lt.mpr (by omega)
  rw [BitVec.sshiftRight_eq_of_msb_false msbFalse, BitVec.toInt_eq_toNat_cond,
    BitVec.toNat_ushiftRight, Nat.shiftRight_eq_div_pow]
  have : objectId.toNat / 2 ^ 48 < 2 ^ 16 := by omega
  simp only [show 2 * (objectId.toNat / 2 ^ 48) < 2 ^ 64 by omega, if_true]

@[simp] theorem stateAfter_getNextObjectId (state : State D) :
    stateAfter (getNextObjectId state) =
      { state with mNextObjectId := state.mNextObjectId + 1 } := by
  dsimp only [getNextObjectId]
  split <;> rfl

/-- The only exception `getNextObjectId` raises is the exhaustion `StateException`. -/
theorem getNextObjectId_error {state after : State D} {fault : Fault}
    (raised : getNextObjectId state = .error fault after) : fault = objectIdsExhausted := by
  dsimp only [getNextObjectId] at raised
  split at raised <;> cases raised
  rfl

theorem afterObjectIdCalls_eq (count : Nat) (state : State D) :
    afterObjectIdCalls count state =
      { state with mNextObjectId := state.mNextObjectId + BitVec.ofNat 64 count } := by
  induction count generalizing state with
  | zero => simp [afterObjectIdCalls]
  | succ count ih =>
      simp only [afterObjectIdCalls, ih, stateAfter_getNextObjectId, BitVec.add_assoc]
      congr 2
      apply BitVec.eq_of_toNat_eq
      simp only [BitVec.toNat_add, BitVec.toNat_ofNat, show (1 : BitVec 64).toNat = 1 from rfl]
      omega

theorem afterObjectIdCalls_succ (count : Nat) (state : State D) :
    afterObjectIdCalls (count + 1) state =
      stateAfter (getNextObjectId (afterObjectIdCalls count state)) := by
  induction count generalizing state with
  | zero => rfl
  | succ count ih => exact ih _

/-- One call on a state of a session below `2^14` whose counter holds `n` below bit
48: it returns `(K << 48) | n` if `n < 2^48` and raises otherwise, as long as
`n < 2^62`. -/
theorem getNextObjectId_of_counter (state : State D) {count : Nat}
    (small : state.mSessionId.toNat < 2 ^ 14)
    (counter : state.mNextObjectId.toNat = state.mSessionId.toNat * 2 ^ 48 + count)
    (bound : count < 2 ^ 62) :
    getNextObjectId state =
      if count < 2 ^ 48 then
        .ok (objectIdOf state.mSessionId count) (stateAfter (getNextObjectId state))
      else .error objectIdsExhausted (stateAfter (getNextObjectId state)) := by
  have shifted := @toInt_sshiftRight_48 state.mNextObjectId (by omega)
  rw [counter] at shifted
  rw [stateAfter_getNextObjectId]
  dsimp only [getNextObjectId]
  rw [shifted]
  by_cases fresh : count < 2 ^ 48
  · have same : (((state.mSessionId.toNat * 2 ^ 48 + count) / 2 ^ 48 : Nat) : Int) =
        state.mSessionId.toNat := by omega
    rw [if_pos fresh, same, if_neg (not_not.mpr rfl)]
    congr 1
    apply BitVec.eq_of_toNat_eq
    rw [counter, toNat_objectIdOf fresh]
  · rw [if_neg fresh, if_pos (by omega)]

theorem toNat_sshiftRight_48 {objectId : ObjectId} (positive : objectId.toNat < 2 ^ 63) :
    (objectId.sshiftRight 48).toNat = objectId.toNat / 2 ^ 48 := by
  have msbFalse : objectId.msb = false :=
    BitVec.msb_eq_false_iff_two_mul_lt.mpr (by omega)
  rw [BitVec.sshiftRight_eq_of_msb_false msbFalse, BitVec.toNat_ushiftRight,
    Nat.shiftRight_eq_div_pow]

/-- Every id minted for a session below `2^14` has its two top bits clear, has
`(id >> 48) & 0x3FFF` equal to the session id, and keeps its counter in the low 48
bits. -/
theorem objectIdOf_layout {sessionId : SessionId} {count : Nat}
    (small : sessionId.toNat < 2 ^ 14) (bound : count < 2 ^ 48) :
    (objectIdOf sessionId count).toNat < 2 ^ 62 ∧
      ((objectIdOf sessionId count).sshiftRight 48 &&& 0x3FFF).toNat = sessionId.toNat ∧
      (objectIdOf sessionId count).toNat % 2 ^ 48 = count := by
  have value := @toNat_objectIdOf sessionId count bound
  refine ⟨by omega, ?_, by omega⟩
  rw [BitVec.toNat_and, toNat_sshiftRight_48 (by omega), value,
    show (0x3FFF : BitVec 64).toNat = 2 ^ 14 - 1 from rfl, Nat.and_pow_two_sub_one_eq_mod]
  omega

/-- For a session id below `2^14`, the `n`-th call of `getNextObjectId` on a newly
built state returns `(K << 48) | n` while `n < 2^48`, and raises from `2^48` on, for
every `n` below `2^62`.  Every id it returns has its two top bits clear, `K` in
`(id >> 48) & 0x3FFF`, and `n` in its low 48 bits. -/
theorem getNextObjectId_nth {sessionId : SessionId} {data : D} {state : State D}
    (small : sessionId.toNat < 2 ^ 14) (built : State.new sessionId data = .ok state)
    {n : Nat} (pos : 0 < n) (bound : n < 2 ^ 62) :
    (getNextObjectId (afterObjectIdCalls (n - 1) state) =
      if n < 2 ^ 48 then .ok (objectIdOf sessionId n) (afterObjectIdCalls n state)
      else .error objectIdsExhausted (afterObjectIdCalls n state)) ∧
    ∀ objectId after, getNextObjectId (afterObjectIdCalls (n - 1) state) = .ok objectId after →
      objectId.toNat < 2 ^ 62 ∧ (objectId.sshiftRight 48 &&& 0x3FFF).toNat = sessionId.toNat ∧
        objectId.toNat % 2 ^ 48 = n := by
  rw [new_eq, Except.ok.injEq] at built
  have session : (afterObjectIdCalls (n - 1) state).mSessionId = sessionId := by
    rw [afterObjectIdCalls_eq, ← built]
  have counter : (afterObjectIdCalls (n - 1) state).mNextObjectId.toNat =
      sessionId.toNat * 2 ^ 48 + n := by
    rw [afterObjectIdCalls_eq, ← built, BitVec.toNat_add, toNat_objectIdOf (by omega),
      BitVec.toNat_ofNat]
    omega
  have next : afterObjectIdCalls n state =
      stateAfter (getNextObjectId (afterObjectIdCalls (n - 1) state)) := by
    rw [← afterObjectIdCalls_succ, Nat.sub_add_cancel pos]
  have step := @getNextObjectId_of_counter D _ n (by rw [session]; exact small)
    (by rw [session]; exact counter) bound
  rw [session, ← next] at step
  refine ⟨step, fun objectId after returned => ?_⟩
  rw [step] at returned
  split at returned
  · cases returned
    exact objectIdOf_layout small ‹_›
  · cases returned

theorem getNextObjectId_nth_of_sessionTen :
    (10 : SessionId).toNat < 2 ^ 14 ∧ 0 < 2 ∧ 2 < 2 ^ 62 ∧
      (getNextObjectId
          (afterObjectIdCalls (2 - 1) (⟨10, objectIdOf 10 1, [], [], ()⟩ : State Unit)) =
        if 2 < 2 ^ 48 then
          .ok (objectIdOf 10 2) (afterObjectIdCalls 2 ⟨10, objectIdOf 10 1, [], [], ()⟩)
        else .error objectIdsExhausted (afterObjectIdCalls 2 ⟨10, objectIdOf 10 1, [], [], ()⟩)) ∧
      ∀ objectId after, getNextObjectId
          (afterObjectIdCalls (2 - 1) (⟨10, objectIdOf 10 1, [], [], ()⟩ : State Unit)) =
          .ok objectId after →
        objectId.toNat < 2 ^ 62 ∧
          (objectId.sshiftRight 48 &&& 0x3FFF).toNat = (10 : SessionId).toNat ∧
          objectId.toNat % 2 ^ 48 = 2 :=
  ⟨by decide, by omega, by omega,
    getNextObjectId_nth (by decide) (new_eq 10 ()) (by omega) (by omega)⟩

/-- The constructor accepts every session id from `2^14` up, although its message says
a session id must fit in 14 bits.  The first id of such a session then breaks the layout:
below `2^15` it is returned with bit 62 set and without the session id in
`(id >> 48) & 0x3FFF`; from `2^15` on it is negative and the call raises. -/
theorem getNextObjectId_first_of_large (sessionId : SessionId) (data : D)
    (large : 2 ^ 14 ≤ sessionId.toNat) :
    ∃ state, State.new sessionId data = .ok state ∧
      (sessionId.toNat < 2 ^ 15 →
        getNextObjectId state = .ok (objectIdOf sessionId 1) (stateAfter (getNextObjectId state)) ∧
        2 ^ 62 ≤ (objectIdOf sessionId 1).toNat ∧
        ((objectIdOf sessionId 1).sshiftRight 48 &&& 0x3FFF).toNat ≠ sessionId.toNat) ∧
      (2 ^ 15 ≤ sessionId.toNat →
        getNextObjectId state =
          .error objectIdsExhausted (stateAfter (getNextObjectId state))) := by
  have session : sessionId.toNat < 2 ^ 16 := sessionId.toNat_lt_size
  have value := @toNat_objectIdOf sessionId 1 (by omega)
  refine ⟨_, new_eq sessionId data, fun below => ?_, fun above => ?_⟩
  · have shifted := @toNat_sshiftRight_48 (objectIdOf sessionId 1) (by omega)
    rw [value] at shifted
    refine ⟨?_, by omega, ?_⟩
    · rw [stateAfter_getNextObjectId]
      dsimp only [getNextObjectId]
      rw [toInt_sshiftRight_48 (by omega), value, if_neg (by omega)]
    · rw [BitVec.toNat_and, shifted, show (0x3FFF : BitVec 64).toNat = 2 ^ 14 - 1 from rfl,
        Nat.and_pow_two_sub_one_eq_mod]
      omega
  · have msbTrue : (objectIdOf sessionId 1).msb = true :=
      BitVec.msb_eq_true_iff_two_mul_ge.mpr (by omega)
    have negative : ((objectIdOf sessionId 1).sshiftRight 48).toInt < 0 :=
      BitVec.toInt_neg_iff.mpr
        (BitVec.msb_eq_true_iff_two_mul_ge.mp (by rw [BitVec.msb_sshiftRight]; exact msbTrue))
    rw [stateAfter_getNextObjectId]
    dsimp only [getNextObjectId]
    rw [if_pos (by omega)]

/-- Session id `16384` is accepted, and the first id of that session has bit 62 set
and `0` where the session id should be. -/
theorem getNextObjectId_session_16384 :
    @State.new Unit 16384 () = .ok ⟨16384, objectIdOf 16384 1, [], [], ()⟩ ∧
      getNextObjectId (⟨16384, objectIdOf 16384 1, [], [], ()⟩ : State Unit) =
        .ok (objectIdOf 16384 1) ⟨16384, objectIdOf 16384 1 + 1, [], [], ()⟩ ∧
      (objectIdOf 16384 1).toNat = 2 ^ 62 + 1 ∧
      ((objectIdOf 16384 1).sshiftRight 48 &&& 0x3FFF).toNat = 0 :=
  ⟨new_eq 16384 (), rfl, rfl, rfl⟩

/-! ## Ids never repeat -/

/-- A call that returns hands out the counter it found, and that counter carries the
session id in its arithmetic shift by 48. -/
theorem getNextObjectId_ok {state after : State D} {objectId : ObjectId}
    (returned : getNextObjectId state = .ok objectId after) :
    objectId = state.mNextObjectId ∧
      (objectId.sshiftRight 48).toInt = state.mSessionId.toNat := by
  dsimp only [getNextObjectId] at returned
  split at returned
  · cases returned
  · cases returned
    exact ⟨rfl, not_not.mp ‹_›⟩

/-- From `2^63` on, the arithmetic shift of `int64_t` is negative. -/
theorem toInt_sshiftRight_48_neg {objectId : ObjectId} (negative : 2 ^ 63 ≤ objectId.toNat) :
    (objectId.sshiftRight 48).toInt < 0 :=
  BitVec.toInt_neg_iff.mpr (BitVec.msb_eq_true_iff_two_mul_ge.mp
    (by rw [BitVec.msb_sshiftRight]; exact BitVec.msb_eq_true_iff_two_mul_ge.mpr (by omega)))

/-- A call that returns, among the first `2^62` on a newly built state, is one the
counter reached without wrapping: the id is `(K << 48) + 1 + count` and carries `K`
above bit 48. -/
theorem getNextObjectId_afterObjectIdCalls_ok {sessionId : SessionId} {data : D}
    {state : State D} (built : State.new sessionId data = .ok state) {count : Nat}
    (bound : count < 2 ^ 62) {objectId : ObjectId} {after : State D}
    (returned : getNextObjectId (afterObjectIdCalls count state) = .ok objectId after) :
    objectId.toNat = sessionId.toNat * 2 ^ 48 + 1 + count ∧
      objectId.toNat / 2 ^ 48 = sessionId.toNat := by
  obtain ⟨counter, shifted⟩ := getNextObjectId_ok returned
  rw [new_eq, Except.ok.injEq] at built
  have session : sessionId.toNat < 2 ^ 16 := sessionId.toNat_lt_size
  have same : (afterObjectIdCalls count state).mSessionId = sessionId := by
    rw [afterObjectIdCalls_eq, ← built]
  rw [same] at shifted
  have value : objectId.toNat = (sessionId.toNat * 2 ^ 48 + 1 + count) % 2 ^ 64 := by
    rw [counter, afterObjectIdCalls_eq, ← built, BitVec.toNat_add, toNat_objectIdOf (by omega),
      BitVec.toNat_ofNat, Nat.mod_eq_of_lt (by omega : count < 2 ^ 64)]
  by_cases small : sessionId.toNat * 2 ^ 48 + 1 + count < 2 ^ 63
  · rw [Nat.mod_eq_of_lt (by omega)] at value
    rw [toInt_sshiftRight_48 (by omega)] at shifted
    exact ⟨value, by omega⟩
  · by_cases wrapped : sessionId.toNat * 2 ^ 48 + 1 + count < 2 ^ 64
    · rw [Nat.mod_eq_of_lt wrapped] at value
      have := @toInt_sshiftRight_48_neg objectId (by omega)
      omega
    · have wrap : objectId.toNat = sessionId.toNat * 2 ^ 48 + 1 + count - 2 ^ 64 := by omega
      rw [toInt_sshiftRight_48 (by omega)] at shifted
      omega

/-- Object ids never repeat.  Of the calls of `getNextObjectId` on newly built states,
of one session id or of two, fewer than `2^62` on each, two that return the same id are
the same call of the same session.  The check on `id >> 48` keeps the sessions apart
for every session id, also from `2^14` up, where the ids break the documented layout. -/
theorem getNextObjectId_unique {D' : Type} {sessionId sessionId' : SessionId} {data : D}
    {data' : D'} {state : State D} {state' : State D'}
    (built : State.new sessionId data = .ok state) (built' : State.new sessionId' data' = .ok state')
    {count count' : Nat} (bound : count < 2 ^ 62) (bound' : count' < 2 ^ 62)
    {objectId : ObjectId} {after : State D} {after' : State D'}
    (returned : getNextObjectId (afterObjectIdCalls count state) = .ok objectId after)
    (returned' : getNextObjectId (afterObjectIdCalls count' state') = .ok objectId after') :
    sessionId = sessionId' ∧ count = count' := by
  obtain ⟨value, session⟩ := getNextObjectId_afterObjectIdCalls_ok built bound returned
  obtain ⟨value', session'⟩ := getNextObjectId_afterObjectIdCalls_ok built' bound' returned'
  have sessions : sessionId.toNat = sessionId'.toNat := session.symm.trans session'
  exact ⟨UInt16.toNat.inj sessions, by omega⟩

theorem getNextObjectId_unique_of_sessionTen :
    @State.new Unit 10 () = .ok ⟨10, objectIdOf 10 1, [], [], ()⟩ ∧ 0 < 2 ^ 62 ∧
      getNextObjectId (afterObjectIdCalls 0 (⟨10, objectIdOf 10 1, [], [], ()⟩ : State Unit)) =
        .ok (objectIdOf 10 1) ⟨10, objectIdOf 10 1 + 1, [], [], ()⟩ ∧
      ((10 : SessionId) = 10 ∧ 0 = 0) :=
  ⟨new_eq 10 (), by omega, rfl,
    getNextObjectId_unique (new_eq 10 ()) (new_eq 10 ()) (by omega) (by omega) rfl rfl⟩

end State

end Octo
