import CodesSim.Lib.Halving
import CodesSim.Mapping.Context

/-!
# The traffic of an allreduce

`SWM_Allreduce` makes the sends and receives of one rank.  `comm_size` ranks are folded onto the
largest power of two (`pof2`): of the first `2 * rem` ranks the even ones hand their data to the
next rank and wait for the result.  The ranks that remain are numbered anew and exchange with the
partners whose numbers differ in one bit, either everything each time (recursive doubling), or
halves of what is left and then back (reduce-scatter and allgather).

* `Phase` tells the calls of `SWM_Allreduce` apart, by their place and the mask of the iteration.
* `recv_cnt` is computed and not passed on; `Call` keeps it.
* An element of `cnts` that is not there is `none`.  The variables of type `int` that can overflow
  wrap around: `pof2` while it is looked for, and the counts.
-/

namespace CodesSim.Online

open Halving
open CodesMapping (wrapInt)

/-! ### The operations of a rank -/

/-- The place of a call in `SWM_Allreduce`. -/
inductive Phase where
  /-- Even ranks to odd ranks. -/
  | fold
  | doubling (mask : ℕ)
  | reduceScatter (mask : ℕ)
  | allgather (mask : ℕ)
  /-- Odd ranks to even ranks. -/
  | unfold

/-- An operation (`codes_workload_op`). -/
inductive WorkloadOp where
  | send (tag : ℕ) (numBytes sourceRank destRank : ℤ)
  | recv (tag : ℕ) (numBytes sourceRank destRank : ℤ)
  | irecv (tag : ℕ) (numBytes sourceRank destRank : ℤ) (reqId : UInt32)
  | wait (reqId : UInt32)

/-- `shared_context`.  An operation stands with the phase it is made in. -/
structure SharedContext where
  myRank : ℕ
  waitId : UInt32
  numRanks : ℕ
  fifo : List (Phase × WorkloadOp)

namespace SharedContext

/-- `sctx->fifo.push_back`. -/
def push (sctx : SharedContext) (phase : Phase) (op : WorkloadOp) : SharedContext :=
  { sctx with fifo := sctx.fifo ++ [(phase, op)] }

/-- `SWM_Send`. -/
def swmSend (phase : Phase) (peer : ℤ) (tag : ℕ) (bytes : ℤ) (sctx : SharedContext) :
    SharedContext :=
  sctx.push phase (.send tag bytes sctx.myRank peer)

/-- `SWM_Recv`. -/
def swmRecv (phase : Phase) (peer : ℤ) (tag : ℕ) (sctx : SharedContext) : SharedContext :=
  sctx.push phase (.recv tag 0 peer sctx.myRank)

/-- `SWM_Irecv`, with the handle. -/
def swmIrecv (phase : Phase) (peer : ℤ) (tag : ℕ) (sctx : SharedContext) : UInt32 × SharedContext :=
  (sctx.waitId,
    { sctx.push phase (.irecv tag 0 peer sctx.myRank sctx.waitId) with waitId := sctx.waitId + 1 })

/-- `SWM_Wait`. -/
def swmWait (phase : Phase) (reqId : UInt32) (sctx : SharedContext) : SharedContext :=
  sctx.push phase (.wait reqId)

/-- `SWM_Sendrecv`. -/
def swmSendrecv (phase : Phase) (sendpeer : ℤ) (sendtag : ℕ) (sendbytes recvpeer : ℤ) (recvtag : ℕ)
    (sctx : SharedContext) : SharedContext :=
  let r := sctx.swmIrecv phase recvpeer recvtag
  (r.2.swmSend phase sendpeer sendtag sendbytes).swmWait phase r.1

end SharedContext

/-! ### The calls -/

/-- A call of `SWM_Allreduce`. -/
inductive Call where
  | send (peer bytes : ℤ)
  | recv (peer : ℤ)
  /-- An exchange with `dst`. -/
  | sendrecv (dst sendCnt : ℤ) (recvCnt : Option ℤ)

/-- A call at its place. -/
abbrev Step := Phase × Call

/-- The tag of all messages. -/
def allreduceTag : ℕ := 1235

/-- What a call does. -/
def perform (sctx : SharedContext) (x : Step) : SharedContext :=
  match x.2 with
  | .send peer bytes => sctx.swmSend x.1 peer allreduceTag bytes
  | .recv peer => sctx.swmRecv x.1 peer allreduceTag
  | .sendrecv dst sendCnt _ => sctx.swmSendrecv x.1 dst allreduceTag sendCnt dst allreduceTag

/-! ### The powers of two -/

/-- `while (pof2 <= comm_size) pof2 <<= 1;`, with fuel. -/
def pof2Loop (commSize : ℕ) : ℕ → ℤ → Option ℤ
  | 0, _ => none
  | fuel + 1, pof2 =>
    if pof2 ≤ commSize then pof2Loop commSize fuel (wrapInt (2 * pof2)) else some pof2

/-- The number of a rank among those that remain; none is -1. -/
def newrankOf (rem rank : ℕ) : Option ℕ :=
  if rank < 2 * rem then
    if rank % 2 = 0 then none else some (rank / 2)
  else some (rank - rem)

/-- `dst`, the rank behind a new number. -/
def dstOf (rem newdst : ℕ) : ℕ := if newdst < rem then newdst * 2 + 1 else newdst + rem

/-- Before the exchanges. -/
def foldCalls (rem rank count : ℕ) : List Step :=
  if rank < 2 * rem then
    if rank % 2 = 0 then [(.fold, .send (rank + 1) count)] else [(.fold, .recv (rank - 1))]
  else []

/-- After the exchanges. -/
def unfoldCalls (rem rank count : ℕ) : List Step :=
  if rank < 2 * rem then
    if rank % 2 = 0 then [(.unfold, .recv (rank + 1))] else [(.unfold, .send (rank - 1) count)]
  else []

/-! ### Recursive doubling -/

/-- An iteration. -/
def doublingBody (rem newrank count mask : ℕ) (_ : Unit) : Option (Step × Unit) :=
  some ((.doubling mask, .sendrecv (dstOf rem (newrank ^^^ mask)) count none), ())

/-- The loop. -/
def doubling (pof2 rem newrank count : ℕ) : Option (List Step) :=
  (whileUp (doublingBody rem newrank count) pof2 1 ()).map Prod.fst

/-! ### Reduce-scatter and allgather -/

/-- `cnts`. -/
def cntsOf (count pof2 : ℕ) : List ℤ :=
  List.replicate (pof2 - 1) (wrapInt (count / pof2 : ℕ)) ++
    [wrapInt (count - count / pof2 * (pof2 - 1) : ℕ)]

/-- `cnts[i]`. -/
def cntAt (cnts : List ℤ) (i : ℤ) : Option ℤ := if i < 0 then none else cnts[i.toNat]?

/-- `disps[i] = disps[i - 1] + cnts[i - 1]`, for a number of elements from `i` on. -/
def dispsFrom (cnts : List ℤ) : ℕ → ℕ → ℤ → Option (List ℤ)
  | 0, _, _ => some []
  | n + 1, i, disp =>
    (cntAt cnts (i - 1)).bind fun c =>
      (dispsFrom cnts n (i + 1) (wrapInt (disp + c))).map fun disps => wrapInt (disp + c) :: disps

/-- `disps`. -/
def dispsOf (cnts : List ℤ) (pof2 : ℕ) : Option (List ℤ) :=
  (dispsFrom cnts (pof2 - 1) 1 0).map fun disps => 0 :: disps

/-- `for (i = lo; i < hi; i++) cnt += cnts[i];`. -/
def sumCnts (cnts : List ℤ) (lo hi : ℤ) : Option ℤ :=
  (List.range (hi - lo).toNat).foldlM
    (fun cnt (j : ℕ) => (cntAt cnts (lo + j)).map fun c => wrapInt (cnt + c)) 0

/-- The indices of the reduce-scatter. -/
structure ScatterIdx where
  (sendIdx recvIdx lastIdx : ℤ)

/-- An iteration of the reduce-scatter. -/
def scatterBody (cnts : List ℤ) (pof2 rem newrank mask : ℕ) (s : ScatterIdx) :
    Option (Step × ScatterIdx) :=
  let newdst := newrank ^^^ mask
  let dst : ℤ := dstOf rem newdst
  let half : ℤ := (pof2 / (mask * 2) : ℕ)
  let nextLast (recvIdx : ℤ) : ℤ :=
    if 2 * mask < pof2 then recvIdx + (pof2 / (2 * mask) : ℕ) else s.lastIdx
  if newrank < newdst then
    let sendIdx := s.recvIdx + half
    (sumCnts cnts sendIdx s.lastIdx).bind fun sendCnt =>
      (sumCnts cnts s.recvIdx sendIdx).map fun recvCnt =>
        ((.reduceScatter mask, .sendrecv dst sendCnt (some recvCnt)),
          ⟨s.recvIdx, s.recvIdx, nextLast s.recvIdx⟩)
  else
    let recvIdx := s.sendIdx + half
    (sumCnts cnts s.sendIdx recvIdx).bind fun sendCnt =>
      (sumCnts cnts recvIdx s.lastIdx).map fun recvCnt =>
        ((.reduceScatter mask, .sendrecv dst sendCnt (some recvCnt)),
          ⟨recvIdx, recvIdx, nextLast recvIdx⟩)

/-- The indices of the allgather; `recv_idx` is set in every iteration before it is read. -/
structure GatherIdx where
  sendIdx : ℤ
  lastIdx : ℤ

/-- An iteration of the allgather. -/
def gatherBody (cnts : List ℤ) (pof2 rem newrank mask : ℕ) (s : GatherIdx) :
    Option (Step × GatherIdx) :=
  let newdst := newrank ^^^ mask
  let dst : ℤ := dstOf rem newdst
  let half : ℤ := (pof2 / (mask * 2) : ℕ)
  if newrank < newdst then
    let lastIdx := if mask ≠ pof2 / 2 then s.lastIdx + half else s.lastIdx
    let recvIdx := s.sendIdx + half
    (sumCnts cnts s.sendIdx recvIdx).bind fun sendCnt =>
      (sumCnts cnts recvIdx lastIdx).map fun recvCnt =>
        ((.allgather mask, .sendrecv dst sendCnt (some recvCnt)), ⟨s.sendIdx, lastIdx⟩)
  else
    let recvIdx := s.sendIdx - half
    (sumCnts cnts s.sendIdx s.lastIdx).bind fun sendCnt =>
      (sumCnts cnts recvIdx s.sendIdx).map fun recvCnt =>
        ((.allgather mask, .sendrecv dst sendCnt (some recvCnt)), ⟨recvIdx, s.lastIdx⟩)

/-- Both loops. -/
def scatterGather (pof2 rem newrank count : ℕ) : Option (List Step) :=
  let cnts := cntsOf count pof2
  (dispsOf cnts pof2).bind fun _ =>
    (whileUp (scatterBody cnts pof2 rem newrank) pof2 1 ⟨0, 0, pof2⟩).bind fun r =>
      -- The mask is one shift beyond the last iteration.
      (whileDown (gatherBody cnts pof2 rem newrank) (r.2.2 / 2) ⟨r.2.1.sendIdx, r.2.1.lastIdx⟩).map
        fun r' => r.1 ++ r'.1

/-! ### The collective -/

/-- `ALLREDUCE_SHORT_MSG_SIZE`. -/
def allreduceShortMsgSize : ℕ := 2048

/-- The exchanges of the ranks that remain. -/
def exchanges (pof2 rem count : ℕ) : Option ℕ → Option (List Step)
  | none => some []
  | some newrank =>
    if count ≤ allreduceShortMsgSize ∨ count < pof2 then doubling pof2 rem newrank count
    else scatterGather pof2 rem newrank count

/-- `SWM_Allreduce`: the calls, and the context after them. -/
def swmAllreduce (fuel count : ℕ) (sctx : SharedContext) : Option (List Step × SharedContext) :=
  (pof2Loop sctx.numRanks fuel 1).bind fun shifted =>
    let pof2 := (shifted / 2).toNat
    let rem := sctx.numRanks - pof2
    let rank := sctx.myRank
    (exchanges pof2 rem count (newrankOf rem rank)).map fun steps =>
      let calls := foldCalls rem rank count ++ steps ++ unfoldCalls rem rank count
      (calls, calls.foldl perform sctx)

end CodesSim.Online
