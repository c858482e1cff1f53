import AsrClient.BlankLine
import AsrClient.BodyExtraction
import AsrClient.BodyFraming
import AsrClient.BufferAudioSource
import AsrClient.Builders
import AsrClient.Codec
import AsrClient.DeclaredLength
import AsrClient.EndOfStream
import AsrClient.Environment
import AsrClient.Exchange.Completion
import AsrClient.Exchange.Faults
import AsrClient.FileAudioSource
import AsrClient.MicFinish
import AsrClient.Package
import AsrClient.ParameterHeaders
import AsrClient.ParameterLines
import AsrClient.Recognizer.AudioFraming
import AsrClient.Recognizer.Builder
import AsrClient.Recognizer.CancelledResults
import AsrClient.Recognizer.Configuration
import AsrClient.Recognizer.Dispatch
import AsrClient.Recognizer.FailedRecognition
import AsrClient.Recognizer.Handover
import AsrClient.Recognizer.LateReply
import AsrClient.Recognizer.OpenFlag
import AsrClient.Recognizer.ProtocolOrder
import AsrClient.Recognizer.ResultCallbacks
import AsrClient.Recognizer.ResultHandling
import AsrClient.Recognizer.SessionStatus
import AsrClient.Recognizer.Streaming
import AsrClient.RejectedLines
import AsrClient.ResultFromJson
import AsrClient.RingArithmetic
import AsrClient.RingBufferCalls
import AsrClient.Server.Connections
import AsrClient.Server.ReadBack
import AsrClient.Server.Results
import AsrClient.TokenSequence
