import RemoteScreen.Main
import RemoteScreen.Proofs.Mirror.Shape
import RemoteScreen.Proofs.Pool.Circulation
import RemoteScreen.Proofs.Session.Lifetime
import RemoteScreen.Proofs.Engine.Effect
import RemoteScreen.Server
import RemoteScreen.Proofs.Pool.Refinement
import RemoteScreen.Proofs.Engine.Checked
import RemoteScreen.Proofs.Mirror.Validity
import RemoteScreen.Engine.Mainline
import RemoteScreen.Proofs.Engine.Mainline
import RemoteScreen.Proofs.Engine.Typing
import RemoteScreen.Proofs.Keyboard.Frames
import RemoteScreen.Proofs.Keyboard.Order
import RemoteScreen.Proofs.Keyboard.Authority
import RemoteScreen.Proofs.Engine.Alike
import RemoteScreen.Proofs.Engine.FanOut
import RemoteScreen.Proofs.Mirror.Completion
import RemoteScreen.Proofs.Mirror.Disorder
import RemoteScreen.Proofs.Engine.Traffic
import RemoteScreen.Proofs.Engine.Silence
import RemoteScreen.Proofs.Engine.Station
import RemoteScreen.Proofs.Engine.Surroundings
import RemoteScreen.Proofs.Server.Premises
import RemoteScreen.Proofs.Keyboard.Lines
import RemoteScreen.Proofs.Server.Routes
import RemoteScreen.Service
import RemoteScreen.Proofs.Server.Service
import RemoteScreen.Proofs.Server.Replies
import RemoteScreen.Proofs.Frame.Fields
import RemoteScreen.Proofs.Frame.Canonical
import RemoteScreen.Proofs.Mirror.Rendering
import RemoteScreen.Client.Run
import RemoteScreen.Proofs.Client.Hearing
import RemoteScreen.Proofs.Client.Calls
import RemoteScreen.Proofs.Client.Sifting
import RemoteScreen.Proofs.Engine.Echo
import RemoteScreen.Proofs.Client.Attribution
import RemoteScreen.Screen.Run
import RemoteScreen.Proofs.Screen.Bounds
import RemoteScreen.Proofs.Screen.Sheet
import RemoteScreen.Proofs.Engine.Ping
import RemoteScreen.Proofs.Client.Discovery
import RemoteScreen.Proofs.Engine.Drain
import RemoteScreen.Proofs.Pool.Accounting
import RemoteScreen.Proofs.Mirror.Refusal
import RemoteScreen.Proofs.Frame.Codec
import RemoteScreen.Proofs.Server.Queue
import RemoteScreen.Proofs.Frame.Reply
import RemoteScreen.Proofs.Text.Identity
