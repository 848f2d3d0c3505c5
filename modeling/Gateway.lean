import Gateway.Main
import Gateway.Observability
import Gateway.Proofs.Hub.Closing
import Gateway.Proofs.Session.Assembler
import Gateway.Proofs.Upgrade.Completing
import Gateway.Scenario.Lifetime
import Gateway.Scenario.Naming
import Gateway.Upgrade.Handles
import Gateway.Utf8.Script
import Gateway.Proofs.Path.Precedence
import Gateway.Proofs.Path.Table
import Gateway.Proofs.Startup.Mounting
import Gateway.Proofs.Startup.Order
import Gateway.Proofs.Hub.Alone
import Gateway.Proofs.Hub.Notices
import Gateway.Proofs.Hub.Operations
import Gateway.Proofs.Upgrade.Leaving
import Gateway.Proofs.Utf8.Replacing
import Gateway.Proofs.Utf8.Draining
import Gateway.Proofs.Upgrade.Signalling
import Gateway.Proofs.Hub.Sessions
import Gateway.Proofs.Hub.Audience
import Gateway.Proofs.Hub.Live
import Gateway.Proofs.Hub.Acts
import Gateway.Proofs.Hub.Reports
import Gateway.Proofs.Chat.Broadcast
import Gateway.Proofs.Chat.Rooms
import Gateway.Proofs.Connection.Stages
import Gateway.Proofs.Connection.Course
import Gateway.Proofs.Connection.Serving
import Gateway.Proofs.Path.Grammar
import Gateway.Proofs.Path.Specificity
import Gateway.Proofs.Shutdown.Delivery
import Gateway.Proofs.Hub.Arrivals
import Gateway.Proofs.Connection.Keeping
import Gateway.Proofs.Connection.Moves
import Gateway.Proofs.Connection.Stopping
import Gateway.Proofs.Connection.Edits
import Gateway.Proofs.Connection.Traffic
import Gateway.Proofs.Connection.Passing
import Gateway.Proofs.Connection.Ending
import Gateway.Proofs.Connection.Excess
import Gateway.Proofs.Connection.Sending
import Gateway.Proofs.Hub.Ordering
import Gateway.Proofs.Shutdown.Sweep
import Gateway.Proofs.Path.Reading
import Gateway.Proofs.Path.Display
import Gateway.Proofs.Path.Filling
import Gateway.Proofs.Path.Language
import Gateway.Proofs.Path.Reachable
import Gateway.Proofs.Utf8.Transcoding
import Gateway.Proofs.Utf8.Lockstep
import Gateway.Proofs.Upgrade.Layers
import Gateway.Proofs.Upgrade.SettingUp
import Gateway.Proofs.Connection.Policies
import Gateway.Proofs.Upgrade.Layering
import Gateway.Proofs.Hub.Account
import Gateway.Proofs.Upgrade.Course
import Gateway.Proofs.Http.Answering
import Gateway.Proofs.Utf8.Diagnostics
import Gateway.Proofs.Config.Rules
import Gateway.Proofs.Http.Authorization
import Gateway.Proofs.Http.Keys
import Gateway.Proofs.Utf8.Resuming
import Gateway.Proofs.Session.Queue
import Gateway.Proofs.Connection.Sharing
import Gateway.Proofs.Upgrade.Offers
import Gateway.Proofs.Upgrade.Subprotocols
import Gateway.Proofs.Session.Spelling
import Gateway.Proofs.Config.IdleTimeout
import Gateway.Proofs.Utf8.Bounded
import Gateway.Proofs.Utf8.Resting
