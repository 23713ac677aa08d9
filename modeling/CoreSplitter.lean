import CoreSplitter.Lib.Bytes
import CoreSplitter.Lib.Utf8
import CoreSplitter.Lib.Utf8Pieces
import CoreSplitter.Lib.Lists
import CoreSplitter.Lib.Table
import CoreSplitter.Lib.Journal
import CoreSplitter.Lib.Lane
import CoreSplitter.Lib.Wire
import CoreSplitter.Lib.Reader
import CoreSplitter.Lib.Reports
import CoreSplitter.Lib.Ascii
import CoreSplitter.Protocol.Decode
import CoreSplitter.Protocol.Frame
import CoreSplitter.Protocol.Types
import CoreSplitter.Node.State
import CoreSplitter.Node.Backlog
import CoreSplitter.Core.State
import CoreSplitter.Core.Messages
import CoreSplitter.Core.Cache
import CoreSplitter.Core.Queue
import CoreSplitter.Core.Handlers
import CoreSplitter.Core.EventLog
import CoreSplitter.Theorems.Panics
import CoreSplitter.Theorems.Moves
import CoreSplitter.Theorems.Queue
import CoreSplitter.Theorems.Writes
import CoreSplitter.Theorems.Calls
import CoreSplitter.Theorems.Sent
import CoreSplitter.Theorems.Stored
import CoreSplitter.Theorems.Fanout
import CoreSplitter.Theorems.Layout
import CoreSplitter.Theorems.Conversions
import CoreSplitter.Theorems.Lengths
import CoreSplitter.Theorems.Echoes
import CoreSplitter.Theorems.Infos
import CoreSplitter.Theorems.Mail
import CoreSplitter.Theorems.Replays
import CoreSplitter.Theorems.Mirror
import CoreSplitter.Theorems.Contacts
import CoreSplitter.Theorems.Service
import CoreSplitter.Theorems.Sessions
import CoreSplitter.Theorems.Origins
import CoreSplitter.Theorems.Listing
import CoreSplitter.Theorems.Channels
import CoreSplitter.Theorems.Rounds
import CoreSplitter.Theorems.Retention
import CoreSplitter.Theorems.Resume
import CoreSplitter.Theorems.Texts
import CoreSplitter.World.Basic
import CoreSplitter.World.LateReplies
import CoreSplitter.World.Lockstep
import CoreSplitter.World.Replies
import CoreSplitter.World.Link
import CoreSplitter.World.Writer
import CoreSplitter.World.Infos
import CoreSplitter.Theorems.Acks
import CoreSplitter.Theorems.Archive
import CoreSplitter.Theorems.Remembered
import CoreSplitter.World.Telemetry
import CoreSplitter.Theorems.Failures
import CoreSplitter.Theorems.Lossless
import CoreSplitter.World.Reads
import CoreSplitter.World.Contacts
import CoreSplitter.World.Channels
import CoreSplitter.World.Frontend
import CoreSplitter.Theorems.Own
import CoreSplitter.World.Requests
import CoreSplitter.World.Waiting
import CoreSplitter.Theorems.Migration
import CoreSplitter.World.Uplink
import CoreSplitter.Node.Tables
import CoreSplitter.Theorems.Tables
import CoreSplitter.Theorems.Storage
import CoreSplitter.Theorems.EventLog
