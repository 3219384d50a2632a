import Lightpay.Amount
import Lightpay.PaymentHash
import Lightpay.ShortChannelId
import Lightpay.Json.Printer
import Lightpay.Json.Parser
import Lightpay.Json.Fields
import Lightpay.NodeAddress
import Lightpay.Onion.Payload
import Lightpay.Document.Payment
import Lightpay.Store.Table
import Lightpay.World
import Lightpay.Session
import Lightpay.Operator.FileTree
import Lightpay.Config.Reader
import Lightpay.Store.File
import Lightpay.Main
import Lightpay.Proofs.Text.Hex
import Lightpay.Proofs.Text.Json
import Lightpay.Proofs.Text.Record
import Lightpay.Proofs.Store.Table
import Lightpay.Proofs.Store.Transaction
import Lightpay.Proofs.Lifecycle.Change
import Lightpay.Proofs.Lifecycle.Run
import Lightpay.Proofs.Lifecycle.Soundness
import Lightpay.Proofs.Lifecycle.ExactlyOnce
import Lightpay.Proofs.Sender.World
import Lightpay.Proofs.Sender.HandOff
import Lightpay.Proofs.Sender.PendingAttempts
import Lightpay.Proofs.Sender.AttemptIds
import Lightpay.Proofs.Lifecycle.History
import Lightpay.Proofs.Lifecycle.Automaton
import Lightpay.Proofs.Lifecycle.Reports
import Lightpay.Proofs.Sender.NamedSettlement
import Lightpay.Proofs.Tlv.Digits
import Lightpay.Proofs.Tlv.BigSize
import Lightpay.Proofs.Tlv.Integer
import Lightpay.Proofs.Tlv.Stream
import Lightpay.Proofs.Onion.ChannelId
import Lightpay.Proofs.Onion.PayloadGrammar
import Lightpay.Proofs.Onion.RoutePayloads
import Lightpay.Proofs.Sender.Dispatch
import Lightpay.Proofs.Sender.Launch
import Lightpay.Proofs.Lifecycle.Independence
import Lightpay.Proofs.Store.Atomicity
import Lightpay.Proofs.Text.Endpoint
import Lightpay.Proofs.Text.ReadBack
import Lightpay.Proofs.Sender.Numbering
import Lightpay.Proofs.Session.Steps
import Lightpay.Proofs.Session.LostSenders
import Lightpay.Proofs.Session.Recovery
import Lightpay.Proofs.Tlv.Ending
import Lightpay.Proofs.Onion.Canonical
import Lightpay.Proofs.Onion.Violations
import Lightpay.Proofs.Store.Listing
import Lightpay.Proofs.Operator.Settings
import Lightpay.Proofs.Operator.Printing
import Lightpay.Proofs.Store.Opening
import Lightpay.Proofs.Session.Reopening
import Lightpay.Proofs.Onion.UnknownRecords
import Lightpay.Proofs.Onion.Writing
import Lightpay.Proofs.Sender.Settlement
import Lightpay.Proofs.Onion.Legacy
import Lightpay.Proofs.Sender.Withdrawal
import Lightpay.Proofs.Undo.Draining
import Lightpay.Proofs.Tlv.PrefixCode
import Lightpay.Proofs.Payment.SentAmount
import Lightpay.Proofs.Onion.ChannelOrder
import Lightpay.Proofs.Text.Hashes
import Lightpay.Proofs.Onion.OneForm
import Lightpay.Proofs.Config.Distinct
import Lightpay.Proofs.Config.Readers
