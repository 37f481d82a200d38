import DfcFlipper.IsoDep.Activation
import DfcFlipper.IsoDep.Overflow
import DfcFlipper.IsoDep.Stale
import DfcFlipper.Link.AtMostOnce
import DfcFlipper.Link.Integrity
import DfcFlipper.Link.Rpc
import DfcFlipper.Storage.Overwrite
import DfcFlipper.Storage.RoundTrip
import DfcFlipper.Scenes.Origin
import DfcFlipper.Scenes.Leaving
import DfcFlipper.Scenes.Hardware
import DfcFlipper.IsoDep.Address
import DfcFlipper.IsoDep.Presence
import DfcFlipper.IsoDep.ByteBuf
import DfcFlipper.IsoDep.Replies
import DfcFlipper.IsoDep.Bounds
import DfcFlipper.IsoDep.Wrapping
import DfcFlipper.Storage.Compile
import DfcFlipper.Storage.Status
import DfcFlipper.Storage.Resources
import DfcFlipper.Reader.ReadFile
import DfcFlipper.Reader.Failed
import DfcFlipper.Reader.Session
import DfcFlipper.Reader.Peer
import DfcFlipper.Reader.Plan
import DfcFlipper.Reader.Resources
import DfcFlipper.Reader.Air
import DfcFlipper.Reader.Transfer
import DfcFlipper.Scenes.Ats
import DfcFlipper.Scenes.Changes
import DfcFlipper.Scenes.Radio
import DfcFlipper.Scenes.Clean
import DfcFlipper.Scenes.Unsaved
import DfcFlipper.Scenes.Files
import DfcFlipper.Scenes.Restarts
import DfcFlipper.Scenes.Presses
