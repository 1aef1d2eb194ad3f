/- digest: When the two parameter commands report a refusal as the code that the LiDAR sent. -/

import LivoxMid360.Control.Client
import LivoxMid360.Protocol.KeyValueGrammar

set_option autoImplicit false
set_option relaxedAutoImplicit false

namespace LivoxMid360.Control.Refusals

open Foundation.RustOutcome
open Foundation.LittleEndian
open Foundation.ByteBuffer
open Protocol.Vocabulary Protocol.Command Protocol.Parameters Protocol.KeyValueGrammar
open Client

def Reported (code : ReturnCode) (ack : CommandFrame) : Prop :=
  setParameterResult ack = .err (.commandFailed code) ∧
  queryParameterResult ack = .err (.commandFailed code)

variable {ack : CommandFrame} {b : UInt8} {code : ReturnCode} {rest : Bytes}

theorem parseParamConfigAck_code (known : ReturnCode.tryFrom b = .ok code) (rest : Bytes) :
    ∃ errorKey, parseParamConfigAck (b :: rest) = .ok (code, errorKey) := by
  have first : (index (b :: rest) 0 : Result UInt8) = .ok b := rfl
  rw [parseParamConfigAck, if_neg (by simp), first, Outcome.ok_bind, known, Outcome.ok_bind]
  -- the error key is optional, and what follows it is not read
  by_cases keyed : 3 ≤ (b :: rest).length
  · rw [if_pos keyed, readLe_ok (by rw [width_u16]; omega)]
    exact ⟨_, rfl⟩
  · rw [if_neg keyed]
    exact ⟨_, rfl⟩

theorem parseParamInquireAck_code (known : ReturnCode.tryFrom b = .ok code) (rest : Bytes) :
    parseParamInquireAck (b :: rest) =
      (do
        let pairs ← decodeKeyValueList rest
        return (code, pairs)) := by
  have first : (index (b :: rest) 0 : Result UInt8) = .ok b := rfl
  have after : (sliceFrom (b :: rest) 1 : Result Bytes) = .ok rest := sliceFrom_ok (by simp)
  rw [parseParamInquireAck, if_neg (by simp), first, Outcome.ok_bind, known, Outcome.ok_bind,
    after, Outcome.ok_bind]

theorem setParameterResult_refused (payload : ack.data = b :: rest)
    (known : ReturnCode.tryFrom b = .ok code) (refused : code ≠ .success) :
    setParameterResult ack = .err (.commandFailed code) := by
  obtain ⟨errorKey, parsed⟩ := parseParamConfigAck_code known rest
  rw [setParameterResult, payload, parsed, Outcome.ok_bind]
  exact if_pos refused

theorem queryParameterResult_refused (payload : ack.data = b :: rest)
    (known : ReturnCode.tryFrom b = .ok code) (refused : code ≠ .success)
    {pairs : KeyValueList} (written : Grammar rest pairs) :
    queryParameterResult ack = .err (.commandFailed code) := by
  rw [queryParameterResult, payload, parseParamInquireAck_code known,
    decode_of_grammar written, Outcome.ok_bind]
  exact if_pos refused

theorem queryParameterResult_masked (payload : ack.data = b :: rest)
    (known : ReturnCode.tryFrom b = .ok code) (foreign : ∀ pairs, ¬ Grammar rest pairs) :
    ∃ need, queryParameterResult ack = .err (.packetTooShort need rest.length) := by
  -- `?` on the list comes before the code is looked at
  obtain ⟨need, _, short⟩ := decode_tooShort foreign
  refine ⟨need, ?_⟩
  rw [queryParameterResult, payload, parseParamInquireAck_code known, short, Outcome.err_bind,
    Outcome.err_bind]

/-- A refusal reaches the callers of both commands exactly when a whole key-value list
follows its code. -/
theorem reported_iff (payload : ack.data = b :: rest) (known : ReturnCode.tryFrom b = .ok code)
    (refused : code ≠ .success) : Reported code ack ↔ ∃ pairs, Grammar rest pairs := by
  constructor
  · intro ⟨_, queried⟩
    by_contra none
    obtain ⟨need, masked⟩ :=
      queryParameterResult_masked payload known (fun pairs written => none ⟨pairs, written⟩)
    cases masked.symm.trans queried
  · intro ⟨pairs, written⟩
    exact ⟨setParameterResult_refused payload known refused,
      queryParameterResult_refused payload known refused written⟩

theorem reported_iff_empty_list :
    Reported .failure
        (ackFrame (CommandFrame.newReq 1 CmdId.paramInquire.asU16 []) [1, 0, 0, 0, 0]) ↔
      ∃ pairs, Grammar [0, 0, 0, 0] pairs :=
  reported_iff rfl rfl (by decide)

/-- The LiDAR answers an inquiry with nothing but the code. -/
theorem bare_code_masked :
    ¬ ∀ (ack : CommandFrame) (b : UInt8) (code : ReturnCode) (rest : Bytes),
      ack.data = b :: rest → ReturnCode.tryFrom b = .ok code → code ≠ .success →
        Reported code ack := by
  intro claim
  have queried := (claim (ackFrame (CommandFrame.newReq 1 CmdId.paramInquire.asU16 []) [1]) 1
    .failure [] rfl rfl (by decide)).2
  have masked : queryParameterResult
      (ackFrame (CommandFrame.newReq 1 CmdId.paramInquire.asU16 []) [1]) =
        .err (.packetTooShort 4 0) := rfl
  cases masked.symm.trans queried

end LivoxMid360.Control.Refusals
