import NearLedger.Lib.Slices
import NearLedger.Lib.Bytes
import NearLedger.Lib.Fragments
import NearLedger.Lib.Interaction
import NearLedger.Lib.Transition
import NearLedger.Lib.Handlers
import NearLedger.Lib.Monitor
import NearLedger.Lib.Utf8
import NearLedger.Lib.Hex
import NearLedger.Crates
import NearLedger.Errors
import NearLedger.HdPath
import NearLedger.Hid
import NearLedger.BleApi
import NearLedger.PrintApdus
import NearLedger.Wire
import NearLedger.Signing.Commands
import NearLedger.Signing.Agreement
import NearLedger.Signing.Ambiguity
import NearLedger.OpenApplication
import NearLedger.Ble.Packet
import NearLedger.Ble.SendFramed
import NearLedger.Ble.RecvFramed
import NearLedger.Ble.Reassembly
import NearLedger.Ble.Foreign
import NearLedger.Ble.Device
import NearLedger.Ble.Transport
import NearLedger.Ble.System
import NearLedger.Ble.Mtu
import NearLedger.Ble.Exchange
import NearLedger.Ble.Delivery
import NearLedger.Ble.Attribution
import NearLedger.Ble.SigningRun
import NearLedger.Ble.Concurrency
import NearLedger.Signing.Calls
import NearLedger.Signing.Aborted
import NearLedger.Ble.Fragmentation
import NearLedger.WellFormed
import NearLedger.Signing.Printed
import NearLedger.Signing.Nep413
import NearLedger.Ble.AwaitPoints
import NearLedger.Ble.Refinement
import NearLedger.Ble.Backlog
import NearLedger.Ble.AtMostOnce
import NearLedger.Ble.Abandoned
import NearLedger.Api.Requests
import NearLedger.Api.Clients
import NearLedger.Api.Shared
import NearLedger.Ble.Gatt
import NearLedger.Ble.Connect
import NearLedger.Ble.Discovery
import NearLedger.Api.Session
import NearLedger.Api.FailStop
import NearLedger.Api.ErrorTexts
