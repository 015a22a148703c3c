/-
The client side of the SIF RPC layer: packets, binds, calls and their answers.

What the source does between `core_save_disable` and `core_restore` is one step
here.  Between the steps of one operation any other operation may run and any
answer may arrive, also inside an end function.  Operations are in NOWAIT mode
and have an end function, which is how the kernel uses the layer; the buffer that
`SifCallRpc` hands to `SifSendCmd` and the cache are left out.

The fields `sent` and `ended` are records of the run and are never read by the
code.
-/

import KernelReloaded.Core.Transition
import Mathlib.Data.List.Nodup
import Mathlib.Logic.Function.Basic

namespace KernelReloaded.SifRpc

def pktTableLen : Nat := 2048 / 64

def packetFAlloc : BitVec 32 := 1

def eLibInvalidArg : Int := 0xd606

def eSifPktAlloc : Int := 0xd610

def eSifPktSend : Int := 0xd611

/-! ### State -/

/-- Clients, servers, buffers and functions are addresses. -/
inductive Operation where
  | bind (sid : Nat)
  | call (rpcNumber ssize recvbuf rsize : Nat)
deriving DecidableEq

structure RpcRequest where
  client : Nat
  operation : Operation
  endFunction : Nat
  endParam : Nat
  present : endFunction ≠ 0
deriving DecidableEq

inductive PacketBody where
  | empty
  | bind (client sid : Nat)
  | call (client rpcNumber sendSize receive recvSize rmode server : Nat)

structure Packet where
  recId : BitVec 32
  rpcId : BitVec 32
  body : PacketBody

structure ClientData where
  /-- The index of a packet in the table; `none` is NULL. -/
  pktAddr : Option Nat
  rpcId : BitVec 32
  semaId : BitVec 32
  command : Nat
  buff : Nat
  cbuff : Nat
  endFunction : Nat
  endParam : Nat
  server : Nat

structure SentRequest where
  request : RpcRequest
  packet : Nat
deriving DecidableEq

/-- How far a request has come.  All but `awaiting` are in the middle of an
operation. -/
inductive Progress where
  /-- Before the look at the client. -/
  | allocated (request : RpcRequest) (packet : Nat)
  /-- The client is taken, the packet is not sent. -/
  | claimed (request : RpcRequest) (packet : Nat)
  /-- The packet is released next, then an error is returned. -/
  | refused (packet : Nat)
  | awaiting (sent : SentRequest)
  /-- In `_request_end`, before the end function. -/
  | ending (sent : SentRequest) (endFunction endParam : Nat)
      (packet : Option Nat)
  /-- In `_request_end`, behind the end function. -/
  | finishing (packet : Option Nat)

structure RpcState where
  pid : BitVec 32
  packets : Nat → Packet
  clients : Nat → ClientData
  progress : List Progress
  sent : List SentRequest
  /-- Which end function ran, with its parameter, for which request. -/
  ended : List (SentRequest × Nat × Nat)

def RpcState.Allocated (state : RpcState) (packet : Nat) : Prop :=
  (state.packets packet).recId &&& packetFAlloc ≠ 0

instance (state : RpcState) : DecidablePred state.Allocated := fun _ =>
  inferInstanceAs (Decidable (_ ≠ _))

def RpcState.push (progress : Progress) (state : RpcState) : RpcState :=
  { state with progress := progress :: state.progress }

def RpcState.setPacket (state : RpcState) (index : Nat) (packet : Packet) :
    RpcState :=
  { state with packets := Function.update state.packets index packet }

def RpcState.setClient (state : RpcState) (index : Nat) (client : ClientData) :
    RpcState :=
  { state with clients := Function.update state.clients index client }

/-! ### Operations -/

def rpcGetPacket (state : RpcState) : Option (Nat × RpcState) :=
  match (List.range pktTableLen).find? fun rid => ¬ state.Allocated rid with
  | none => none
  | some rid =>
      let pid := if state.pid ≠ 0 then state.pid + 1 else 1
      let nextPid := if state.pid ≠ 0 then state.pid + 1 else state.pid + 2
      some (rid, { state with pid := nextPid }.setPacket rid
        { state.packets rid with
          recId := BitVec.ofNat 32 (rid <<< 16) ||| 4 ||| packetFAlloc
          rpcId := pid })

def rpcPacketFree (state : RpcState) (packet : Nat) : RpcState :=
  state.setPacket packet
    { state.packets packet with
      rpcId := 0
      recId := (state.packets packet).recId &&& ~~~ packetFAlloc }

/-- The writes to a client that is not in use. -/
def claimClient (request : RpcRequest) (packet : Nat) (state : RpcState) :
    RpcState :=
  let client :=
    { state.clients request.client with
      endFunction := request.endFunction
      endParam := request.endParam
      pktAddr := some packet
      rpcId := (state.packets packet).rpcId
      semaId := 0 }
  state.setClient request.client <|
    match request.operation with
    | .bind _ => { client with command := 0, server := 0 }
    | .call .. => client

def fillPacket (request : RpcRequest) (packet : Nat) (state : RpcState) :
    RpcState :=
  state.setPacket packet
    { state.packets packet with
      body :=
        match request.operation with
        | .bind sid => .bind request.client sid
        | .call rpcNumber ssize recvbuf rsize =>
            .call request.client rpcNumber ssize recvbuf rsize
              (if request.endFunction = 0 then 0 else 1)
              (state.clients request.client).server }

/-- `SifCallRpc` refuses a receive buffer that is not aligned. -/
def Operation.aligned : Operation → Bool
  | .bind _ => true
  | .call _ _ recvbuf _ => recvbuf &&& 0x0f = 0

/-- `SifBindRpc` and `SifCallRpc` without interruption; `accepted` is whether
`SifSendCmd` takes the packet. -/
def rpcOperation (request : RpcRequest) (accepted : Bool) (state : RpcState) :
    Int × RpcState :=
  if request.operation.aligned = false then
    (-eLibInvalidArg, state)
  else
    match rpcGetPacket state with
    | none => (-eSifPktAlloc, state)
    | some (packet, state) =>
        if (state.clients request.client).pktAddr ≠ none then
          (-eSifPktAlloc, rpcPacketFree state packet)
        else
          let state := fillPacket request packet
            (claimClient request packet state)
          if accepted then
            let sent := { request := request, packet := packet }
            (0, { state with sent := state.sent ++ [sent] }.push
              (.awaiting sent))
          else
            (-eSifPktSend, rpcPacketFree state packet)

/-- The part of the answer to a bind that the client keeps. -/
structure Reply where
  server : Nat
  buff : Nat
  cbuff : Nat

/-- `_request_end` up to the end function. -/
def requestEnd (sent : SentRequest) (reply : Reply) (state : RpcState) :
    RpcState :=
  let client := state.clients sent.request.client
  let answered := { client with
    semaId := client.semaId + 1
    pktAddr := none }
  let answered :=
    match sent.request.operation with
    | .call .. => answered
    | .bind _ =>
        { answered with
          server := reply.server, buff := reply.buff, cbuff := reply.cbuff }
  (state.setClient sent.request.client answered).push
    (.ending sent client.endFunction client.endParam client.pktAddr)

/-! ### Steps -/

structure Outside where
  accepted : Bool
  reply : Reply

inductive Event where
  | start (request : RpcRequest)
  | resume (index : Nat) (outside : Outside)

/-- The checks and the allocation in front of the client's. -/
def startRequest (request : RpcRequest) (state : RpcState) : RpcState :=
  if request.operation.aligned = false then
    state
  else
    match rpcGetPacket state with
    | none => state
    | some (packet, state) => state.push (.allocated request packet)

/-- The next part of a request; the state is without it. -/
def resumeRequest (outside : Outside) (state : RpcState) : Progress → RpcState
  | .allocated request packet =>
      if (state.clients request.client).pktAddr ≠ none then
        state.push (.refused packet)
      else
        (claimClient request packet state).push (.claimed request packet)
  | .claimed request packet =>
      let state := fillPacket request packet state
      if outside.accepted then
        let sent := { request := request, packet := packet }
        { state with sent := state.sent ++ [sent] }.push (.awaiting sent)
      else
        state.push (.refused packet)
  | .refused packet => rpcPacketFree state packet
  | .awaiting sent => requestEnd sent outside.reply state
  | .ending sent endFunction endParam packet =>
      let state :=
        if endFunction ≠ 0 then
          { state with ended := state.ended ++ [(sent, endFunction, endParam)] }
        else
          state
      state.push (.finishing packet)
  | .finishing none => state
  | .finishing (some packet) => rpcPacketFree state packet

def rpcStep (state : RpcState) : Event → Option RpcState
  | .start request => some (startRequest request state)
  | .resume index outside =>
      match state.progress[index]? with
      | none => none
      | some progress =>
          some (resumeRequest outside
            { state with progress := state.progress.eraseIdx index } progress)

def rpcMachine : Machine RpcState Event :=
  { initial :=
      { pid := 1
        packets := fun _ => { recId := 0, rpcId := 0, body := .empty }
        clients := fun _ =>
          { pktAddr := none, rpcId := 0, semaId := 0, command := 0, buff := 0
            cbuff := 0, endFunction := 0, endParam := 0, server := 0 }
        progress := []
        sent := []
        ended := [] }
    step := rpcStep }

end KernelReloaded.SifRpc
