import ScriptProbe.Engine.Library.Echo
import ScriptProbe.Engine.Library.Playback
import ScriptProbe.Engine.Scripted
import ScriptProbe.Main
import ScriptProbe.Proofs.Chain.DepGroup
import ScriptProbe.Proofs.Command.Advice
import ScriptProbe.Proofs.Command.Located
import ScriptProbe.Proofs.Engine.Acceptance
import ScriptProbe.Proofs.Engine.Bookkeeping
import ScriptProbe.Proofs.Engine.CycleText
import ScriptProbe.Proofs.Engine.Decoding
import ScriptProbe.Proofs.Engine.Defect
import ScriptProbe.Proofs.Engine.Division
import ScriptProbe.Proofs.Engine.Handover
import ScriptProbe.Proofs.Engine.Invocation
import ScriptProbe.Proofs.Engine.Parameters
import ScriptProbe.Proofs.Engine.Scripted
import ScriptProbe.Proofs.Fixture.Consistency
import ScriptProbe.Proofs.Fixture.Identity
import ScriptProbe.Proofs.Fixture.Shortcut
