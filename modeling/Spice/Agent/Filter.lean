import Spice.Lib.Bytes

namespace Spice
namespace Agent

open Lib

/-!
# The filter of agent messages

The server reads the messages of the guest agent chunk by chunk and passes each chunk through
a filter.  The filter reads the header of a message, decides from its type, and counts the
data that is still to come; the chunks that follow get the same verdict.  A chunk that is too
large or has no header is a protocol error.
-/

/-- `SPICE_AGENT_MAX_DATA_SIZE` and `VD_AGENT_MAX_DATA_SIZE`. -/
def maxDataSize : Nat := 2048

/-- `sizeof(VDIChunkHeader)`. -/
def chunkHeaderSize : Nat := 8

/-- `sizeof(VDAgentMessage)`. -/
def agentMessageSize : Nat := 20

/-- The results of `agent_msg_filter_process_data`. -/
inductive Verdict
  | ok
  | discard
  | protoError
  | monitorsConfig
deriving DecidableEq, Repr

/-- `AgentMsgFilter`, with what `red_dispatcher_use_client_monitors_config` says. -/
structure AgentMsgFilter where
  msgDataToRead : Nat
  result : Verdict
  copyPasteEnabled : Bool
  fileXferEnabled : Bool
  discardAll : Bool
  useMonitorsConfig : Bool
deriving DecidableEq, Repr

/-- A field of `VDAgentMessage`. -/
def messageField (offset width : Nat) (data : List UInt8) : Nat := littleEndian ((data.drop offset).take width)

namespace AgentMsgFilter

def init (copyPaste fileXfer discardAll useMonitorsConfig : Bool) : AgentMsgFilter where
  msgDataToRead := 0
  result := .ok
  copyPasteEnabled := copyPaste
  fileXferEnabled := fileXfer
  discardAll := discardAll
  useMonitorsConfig := useMonitorsConfig

variable (filter : AgentMsgFilter)

def typeResult (type : Nat) : Verdict :=
  if filter.discardAll then .discard
  else if type = 4 ∨ type = 7 ∨ type = 8 ∨ type = 9 then if filter.copyPasteEnabled then .ok else .discard
  else if type = 10 ∨ type = 11 ∨ type = 12 then if filter.fileXferEnabled then .ok else .discard
  else if type = 2 then if filter.useMonitorsConfig then .monitorsConfig else .ok
  else .ok

def dataToRead (length : Nat) : AgentMsgFilter × Verdict :=
  if filter.msgDataToRead < length then (filter, .protoError)
  else ({ filter with msgDataToRead := filter.msgDataToRead - length }, filter.result)

def processData (data : List UInt8) : AgentMsgFilter × Verdict :=
  if maxDataSize < data.length then (filter, .protoError)
  else if filter.msgDataToRead ≠ 0 then filter.dataToRead data.length
  else if data.length < agentMessageSize then (filter, .protoError)
  else if messageField 0 4 data ≠ 1 then (filter, .protoError)
  else
    let started :=
      { filter with result := filter.typeResult (messageField 4 4 data), msgDataToRead := messageField 16 4 data }
    if started.msgDataToRead ≠ 0 then started.dataToRead (data.length - agentMessageSize) else (started, started.result)

end AgentMsgFilter

end Agent
end Spice
