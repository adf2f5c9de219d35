import WasmEmbed.Config.File
import WasmEmbed.Config.Stream
import WasmEmbed.Ledger
import WasmEmbed.Module.Load
import WasmEmbed.Realm
import WasmEmbed.Handles
import WasmEmbed.Request
import WasmEmbed.Proofs.Cache.Transparency
import WasmEmbed.Proofs.Store.Access
import WasmEmbed.Run
import WasmEmbed.Proofs.Realm.Frame
import WasmEmbed.Proofs.Call.Gate
import WasmEmbed.Proofs.Call.Lifecycle
import WasmEmbed.Proofs.Realm.Caching
import WasmEmbed.Proofs.Store.Stale
import WasmEmbed.Proofs.Realm.Validity
import WasmEmbed.Proofs.Machine.Host
import WasmEmbed.Proofs.Machine.Instantiate
import WasmEmbed.Proofs.Store.World
import WasmEmbed.Proofs.Realm.Isolation
import WasmEmbed.Proofs.Imports.Linking
import WasmEmbed.Proofs.Instance.Attempt
import WasmEmbed.Proofs.Instance.Numbering
import WasmEmbed.Proofs.Machine.Consulting
import WasmEmbed.Proofs.Failure.Taxonomy
import WasmEmbed.Proofs.Heap.Typed
import WasmEmbed.Proofs.Heap.Thing
import WasmEmbed.Proofs.Machine.Log
import WasmEmbed.Proofs.Store.Log
import WasmEmbed.Proofs.Heap.Sound
import WasmEmbed.Proofs.Machine.Results
import WasmEmbed.Proofs.Instance.Exports
import WasmEmbed.Proofs.Realm.Keeping
import WasmEmbed.Proofs.Call.Agreement
import WasmEmbed.Proofs.Machine.Fuel
import WasmEmbed.Proofs.Store.Spending
import WasmEmbed.Proofs.Realm.Opening
import WasmEmbed.Proofs.Realm.Accounting
import WasmEmbed.Proofs.Realm.Trapping
import WasmEmbed.Proofs.Value.Integers
import WasmEmbed.Proofs.Heap.Declared
import WasmEmbed.Proofs.Realm.Limits
import WasmEmbed.Proofs.Realm.Boundary
import WasmEmbed.Proofs.Realm.Executing
import WasmEmbed.Proofs.Machine.Callback
import WasmEmbed.Proofs.Failure.Callback
import WasmEmbed.Proofs.Realm.Handles
import WasmEmbed.Proofs.Instance.Placing
import WasmEmbed.Proofs.Machine.Sharing
import WasmEmbed.Proofs.Store.Sharing
import WasmEmbed.Proofs.Realm.Placing
import WasmEmbed.Proofs.Realm.Sharing
import WasmEmbed.Proofs.Typing.Operands
import WasmEmbed.Proofs.Typing.Operators
import WasmEmbed.Proofs.Machine.Typed
import WasmEmbed.Proofs.Ieee.Rounding
import WasmEmbed.Proofs.Ieee.Conversion
import WasmEmbed.Proofs.Value.Floats
import WasmEmbed.Proofs.Cache.Queue
import WasmEmbed.Proofs.Instance.Binding
import WasmEmbed.Proofs.Realm.Exports
import WasmEmbed.Proofs.Store.Frame
import WasmEmbed.Proofs.Store.Writing
import WasmEmbed.Proofs.Realm.Memories
import WasmEmbed.Proofs.Realm.Variables
import WasmEmbed.Proofs.Json.Members
import WasmEmbed.Proofs.Text.ByteOrder
import WasmEmbed.Proofs.Config.Values
import WasmEmbed.Proofs.Config.Options
import WasmEmbed.Proofs.Json.Reading
import WasmEmbed.Proofs.Json.Progress
import WasmEmbed.Proofs.Json.RoundTrip
import WasmEmbed.Proofs.Config.Settings
import WasmEmbed.Proofs.Config.Readers
import WasmEmbed.Proofs.Config.Spelling
import WasmEmbed.Proofs.Config.Streaming
import WasmEmbed.Proofs.Config.Writing
import WasmEmbed.Proofs.Config.Documents
import WasmEmbed.Proofs.Config.Routes
import WasmEmbed.Proofs.Text.Utf8
import WasmEmbed.Proofs.Module.Loading
import WasmEmbed.Proofs.Failure.Starting
import WasmEmbed.Proofs.Realm.Mismatches
import WasmEmbed.Proofs.Imports.Definitions
