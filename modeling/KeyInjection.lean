import KeyInjection.Apdu.Codec
import KeyInjection.Apdu.Display
import KeyInjection.Apdu.File
import KeyInjection.Apdu.Frame
import KeyInjection.Apdu.Header
import KeyInjection.Apdu.Message
import KeyInjection.Apdu.Secure
import KeyInjection.Apdu.Status
import KeyInjection.Bytes
import KeyInjection.Channel
import KeyInjection.Channel.Script
import KeyInjection.CommandLine.Endpoint
import KeyInjection.CommandLine.Log
import KeyInjection.CommandLine.Options
import KeyInjection.CommandLine.Run
import KeyInjection.CommandLine.Scan
import KeyInjection.Device
import KeyInjection.Error
import KeyInjection.Injection.Failure
import KeyInjection.Injection.KeyFiles
import KeyInjection.Injection.Run
import KeyInjection.Json.Parser
import KeyInjection.Json.Printer
import KeyInjection.Json.Value
import KeyInjection.KeyHost.Client
import KeyInjection.KeyHost.Http.Exchange
import KeyInjection.KeyHost.Http.Status
import KeyInjection.KeyHost.Request
import KeyInjection.KeyHost.Response
import KeyInjection.Main
import KeyInjection.Number.Literal
import KeyInjection.Number.Rounding
import KeyInjection.Number.Shortest
import KeyInjection.Proofs.Apdu.Decoding
import KeyInjection.Proofs.Apdu.Encoding
import KeyInjection.Proofs.Apdu.RoundTrip
import KeyInjection.Proofs.Apdu.Spelling
import KeyInjection.Proofs.Channel.Exchange
import KeyInjection.Proofs.Device.Dialogue
import KeyInjection.Proofs.Device.Operations
import KeyInjection.Proofs.Device.Steps
import KeyInjection.Proofs.Device.Validation
import KeyInjection.Proofs.Injection.Contract
import KeyInjection.Proofs.Injection.Derivation
import KeyInjection.Proofs.Injection.Dialogue
import KeyInjection.Proofs.Injection.Events
import KeyInjection.Proofs.Injection.Healthy
import KeyInjection.Proofs.Injection.Interruption
import KeyInjection.Proofs.Injection.KeyFiles
import KeyInjection.Proofs.Injection.Narration
import KeyInjection.Proofs.Injection.Parts
import KeyInjection.Proofs.Injection.Phases
import KeyInjection.Proofs.Injection.Prompts
import KeyInjection.Proofs.Injection.Repetition
import KeyInjection.Proofs.Injection.Secrecy
import KeyInjection.Proofs.Injection.Transcript
import KeyInjection.Proofs.Injection.Unwritable
import KeyInjection.Proofs.Injection.Writes
import KeyInjection.Proofs.Json.Grammar
import KeyInjection.Proofs.Json.Reading
import KeyInjection.Proofs.Json.RoundTrip
import KeyInjection.Proofs.Json.Tokens
import KeyInjection.Proofs.KeyHost.Provisioning
import KeyInjection.Proofs.KeyHost.Requests
import KeyInjection.Proofs.Number.Rounding
import KeyInjection.Proofs.Session.Gives
import KeyInjection.Proofs.Session.Pairs
import KeyInjection.Proofs.Session.Runs
import KeyInjection.Proofs.Session.Talk
import KeyInjection.Proofs.Session.Turns
import KeyInjection.Proofs.Stream.Attribution
import KeyInjection.Proofs.Stream.Frames
import KeyInjection.Proofs.Stream.Framing
import KeyInjection.Proofs.Stream.Served
import KeyInjection.Proofs.Stream.Silence
import KeyInjection.Proofs.Terminal.Clients
import KeyInjection.Proofs.Terminal.Device
import KeyInjection.Proofs.Terminal.Display
import KeyInjection.Proofs.Terminal.Downloads
import KeyInjection.Proofs.Terminal.FileHistory
import KeyInjection.Proofs.Terminal.Handling
import KeyInjection.Proofs.Terminal.Histories
import KeyInjection.Proofs.Terminal.Interfaces
import KeyInjection.Proofs.Terminal.Interruption
import KeyInjection.Proofs.Terminal.Keeping
import KeyInjection.Proofs.Terminal.Obeying
import KeyInjection.Proofs.Terminal.Outcomes
import KeyInjection.Proofs.Terminal.Refusals
import KeyInjection.Proofs.Terminal.SecureStorage
import KeyInjection.Proofs.Terminal.Transfer
import KeyInjection.Proofs.Terminal.Uploads
import KeyInjection.Proofs.Text.Hex
import KeyInjection.Proofs.Transfer.Dialogue
import KeyInjection.Proofs.Transfer.Download
import KeyInjection.Proofs.Transfer.FailingSources
import KeyInjection.Proofs.Transfer.Lengths
import KeyInjection.Proofs.Transfer.Moves
import KeyInjection.Proofs.Transfer.Pace
import KeyInjection.Proofs.Transfer.Pieces
import KeyInjection.Proofs.Transfer.Progress
import KeyInjection.Proofs.Transfer.Reports
import KeyInjection.Proofs.Transfer.Sources
import KeyInjection.Proofs.Transfer.Transcript
import KeyInjection.Proofs.Transfer.Upload
import KeyInjection.Proofs.Transfer.Validation
import KeyInjection.Session
import KeyInjection.Stream.Frame
import KeyInjection.Stream.Link
import KeyInjection.Stream.Script
import KeyInjection.Terminal.Faults
import KeyInjection.Terminal.Files
import KeyInjection.Terminal.Handle
import KeyInjection.Terminal.Link
import KeyInjection.Terminal.Server
import KeyInjection.Text.Decimal
import KeyInjection.Text.Hex
import KeyInjection.Text.Quoted
import KeyInjection.Transfer.Download
import KeyInjection.Transfer.Options
import KeyInjection.Transfer.Pace
import KeyInjection.Transfer.Pieces
import KeyInjection.Transfer.Source
import KeyInjection.Transfer.Upload
