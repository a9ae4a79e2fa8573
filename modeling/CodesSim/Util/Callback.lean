import CodesSim.Mapping.Basic

/-!
# Callbacks

A caller that wants an answer sends along where in its own event the answer shall stand, a header
and a tag (`codes_cb_params`), and the callee answers with an event of this form.
-/

namespace CodesSim

/-- Where the parts of an answer stand in an event (`codes_cb_info`). -/
structure CbInfo where
  (eventSize headerOffset tagOffset cbRetOffset : ℤ)
  deriving DecidableEq

/-- `msg_header`. -/
structure MsgHeader where
  src : Lpid
  eventType : ℤ
  magic : ℤ
  deriving DecidableEq

/-- `codes_cb_params`. -/
structure CbParams where
  info : CbInfo
  h : MsgHeader
  tag : ℤ
  deriving DecidableEq

/-- `SANITY_CHECK_CB`, for an answer of a size: a header has 16 bytes and a tag 4. -/
def CbInfo.Sane (info : CbInfo) (retSize : ℤ) : Prop :=
  (info.eventSize > 0 ∧ info.headerOffset ≥ 0 ∧ info.tagOffset ≥ 0 ∧ info.cbRetOffset ≥ 0) ∧
    info.eventSize ≥ retSize + 4 + 16 ∧ info.eventSize ≥ info.headerOffset + 16 ∧
    info.eventSize ≥ info.tagOffset + 4 ∧ info.eventSize ≥ info.cbRetOffset + retSize

instance (info : CbInfo) (retSize : ℤ) : Decidable (info.Sane retSize) := by
  unfold CbInfo.Sane
  infer_instance

/-- The answer to a call. -/
structure Answer (ρ : Type*) where
  dest : Lpid
  info : CbInfo
  header : MsgHeader
  tag : ℤ
  ret : ρ
  deriving DecidableEq

/-- The answer of an LP: `GET_INIT_CB_PTRS` with what is returned. -/
def CbParams.answer {ρ : Type*} (p : CbParams) (self : Lpid) (ret : ρ) : Answer ρ :=
  ⟨p.h.src, p.info, ⟨self, p.h.eventType, p.h.magic⟩, p.tag, ret⟩

end CodesSim
