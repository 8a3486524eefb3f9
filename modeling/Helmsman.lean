import Helmsman.Gateway.Routes
import Helmsman.Settings.Load
import Helmsman.Proofs.Estate.Gate
import Helmsman.Proofs.Estate.Log
import Helmsman.Proofs.Reply.Deadline
import Helmsman.Proofs.Reply.RoundLimit
import Helmsman.Proofs.Reply.Telling
import Helmsman.Proofs.Reply.Truncation
import Helmsman.Proofs.Stream.Reassembly
import Helmsman.Proofs.Estate.Isolation
import Helmsman.Proofs.Json.OneLine
import Helmsman.Proofs.Gateway.Relay
import Helmsman.Proofs.Json.Need
import Helmsman.Proofs.Provider.Config
import Helmsman.Proofs.Gateway.Stored
import Helmsman.Proofs.Gateway.Secrecy
import Helmsman.Proofs.Chat.Message
import Helmsman.Proofs.Gateway.Trial
import Helmsman.Proofs.Cluster.History
import Helmsman.Proofs.Cluster.Loaded
import Helmsman.Proofs.Estate.Report
import Helmsman.Proofs.Reply.Display
import Helmsman.Proofs.Chat.Attribution
import Helmsman.Proofs.Stream.Pieces
import Helmsman.Proofs.Tools.Replicas
import Helmsman.Proofs.Estate.Listing
import Helmsman.Proofs.Estate.Recent
import Helmsman.Proofs.Estate.PodLogs
import Helmsman.Proofs.Estate.Restarts
import Helmsman.Proofs.Reply.Announced
import Helmsman.Proofs.Prompt
import Helmsman.Proofs.Settings.Environment
import Helmsman.Proofs.Gateway.Admission
import Helmsman.Proofs.Stream.Buffer
