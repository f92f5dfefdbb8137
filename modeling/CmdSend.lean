import CmdSend.Lib.ByteOrder
import CmdSend.Lib.Numeral
import CmdSend.Lib.BitField
import CmdSend.Lib.IntType
import CmdSend.Lib.Run
import CmdSend.Lib.Loop
import CmdSend.Lib.Store
import CmdSend.Lib.Format
import CmdSend.Lib.Getopt
import CmdSend.Lib.Spelling
import CmdSend.Lib.Words
import CmdSend.Options
import CmdSend.PassThru.Model
import CmdSend.PassThru.Fields
import CmdSend.PassThru.Step
import CmdSend.PassThru.Safety
import CmdSend.PassThru.Refusal
import CmdSend.PassThru.Pack
import CmdSend.PassThru.Header
import CmdSend.PassThru.Decode
import CmdSend.PassThru.Payload
import CmdSend.PassThru.Integers
import CmdSend.PassThru.Layout
import CmdSend.PassThru.Repack
import CmdSend.PassThru.Numbers
import CmdSend.PassThru.HeaderValue
import CmdSend.PassThru.Capacity
import CmdSend.PassThru.PacketId
import CmdSend.Lib.Reorder
import CmdSend.PassThru.Strings
import CmdSend.Eds.Model
import CmdSend.Eds.Lookup
import CmdSend.Eds.Session
import CmdSend.Eds.Destination
import CmdSend.Eds.Selection
import CmdSend.Eds.Component
import CmdSend.PayloadErrors
import CmdSend.Dispatch.Model
import CmdSend.Dispatch.Reference
import CmdSend.Dispatch.Table
import CmdSend.Verdicts
import CmdSend.Dispatch.Dropped
import CmdSend.PassThru.Independence
import CmdSend.Console.Hexdump
import CmdSend.Collect
import CmdSend.SendUdp
import CmdSend.Program
import CmdSend.TlmRecv
import CmdSend.TlmServer
import CmdSend.Eds.Usage
import CmdSend.Eds.Writes
import CmdSend.Eds.Arrays
import CmdSend.Eds.Request
import CmdSend.Eds.Draft
import CmdSend.Eds.Help
import CmdSend.Dispatch.Errors
import CmdSend.PassThru.Errors
import CmdSend.Eds.Errors
import CmdSend.Failure
import CmdSend.FullBuild
import CmdSend.Dispatch.Offers
