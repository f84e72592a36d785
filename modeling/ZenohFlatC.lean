import ZenohFlatC.Framework.CStr
import ZenohFlatC.Framework.Exec
import ZenohFlatC.Framework.Tiled
import ZenohFlatC.Framework.Json5
import ZenohFlatC.Args.ParseOpt
import ZenohFlatC.Args.Conserve
import ZenohFlatC.Args.Common
import ZenohFlatC.Args.JsonList
import ZenohFlatC.Args.JsonRead
import ZenohFlatC.Args.Units
import ZenohFlatC.Args.Scan
import ZenohFlatC.Args.Stages
import ZenohFlatC.Args.CommonStages
import ZenohFlatC.Framework.Tally
import ZenohFlatC.Args.Rounds
import ZenohFlatC.Args.Queryable
import ZenohFlatC.Framework.Atoi
import ZenohFlatC.Args.Numbers
import ZenohFlatC.Args.Accept
import ZenohFlatC.Args.Grammar
import ZenohFlatC.Args.Endpoints
import ZenohFlatC.Args.TwoRuns
import ZenohFlatC.Args.Names
import ZenohFlatC.Args.Examples
import ZenohFlatC.Framework.Decimal
import ZenohFlatC.Args.Render
import ZenohFlatC.Args.Rearrange
import ZenohFlatC.Framework.FailStop
import ZenohFlatC.Args.FailStop
import ZenohFlatC.Framework.Transition
import ZenohFlatC.Get.Completion
import ZenohFlatC.Framework.Potential
import ZenohFlatC.Get.Progress
import ZenohFlatC.SubThr.Stats
import ZenohFlatC.SubThr.Measurements
import ZenohFlatC.SubThr.Clocks
import ZenohFlatC.SubThr.Output
import ZenohFlatC.Scout.Count
import ZenohFlatC.BuildRs.Publish
import ZenohFlatC.Framework.Cpp
import ZenohFlatC.BuildRs.Consumer
import ZenohFlatC.Framework.Codes
import ZenohFlatC.BuildRs.Mangle
import ZenohFlatC.Framework.Ledger
import ZenohFlatC.Handles.Api
import ZenohFlatC.Handles.Mains
import ZenohFlatC.Handles.Loops
import ZenohFlatC.Handles.Tests
import ZenohFlatC.Handles.Callbacks
import ZenohFlatC.Handles.ParseArgs
import ZenohFlatC.Handles.Asks
import ZenohFlatC.Handles.Replies
