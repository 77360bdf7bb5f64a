import PointerLab.Runs
import PointerLab.Tables
import PointerLab.Overlay
import PointerLab.Layers
import PointerLab.Domain
import PointerLab.DebugPump
import PointerLab.DebugPumpLedger
import PointerLab.DebugPumpTraps
import PointerLab.DebugPumpSession
import PointerLab.DebugPumpShutdown
import PointerLab.DebugPumpRecognition
import PointerLab.DebugPumpRegisters
import PointerLab.DebugPumpSlots
import PointerLab.TargetSession
import PointerLab.PatchRegistry
import PointerLab.PatchRegistryLayers
import PointerLab.PatchRegistryInvariant
import PointerLab.PatchRegistryCalls
import PointerLab.PatchRegistryBook
import PointerLab.PatchRegistryCallSteps
import PointerLab.PatchRegistryCallsInvariant
import PointerLab.SpeedController
import PointerLab.AttachFlow
import PointerLab.AttachFlowInvariant
import PointerLab.Sweep
import PointerLab.Digits
import PointerLab.Values
import PointerLab.TargetView
import PointerLab.MemoryScanner
import PointerLab.FindPattern
import PointerLab.AobScan
import PointerLab.ScanFirst
import PointerLab.NextScan
import PointerLab.NextScanHistory
import PointerLab.ScanTruncation
import PointerLab.NextScanAbsolute
import PointerLab.MachineIntegers
import PointerLab.IntegerValues
import PointerLab.CNumbers
import PointerLab.Utf
import PointerLab.Pieces
import PointerLab.ProjectStore
import PointerLab.OrderedMap
import PointerLab.ScriptText
import PointerLab.ScanValues
import PointerLab.PatternTokens
import PointerLab.NextScanRelative
import PointerLab.ScanFrontEnds
import PointerLab.Levels
import PointerLab.PointerScanner
import PointerLab.PointerScannerSlots
import PointerLab.PointerScannerSearch
import PointerLab.PointerScannerExact
import PointerLab.PointerRescan
import PointerLab.Interruptible
import PointerLab.RescanCancel
import PointerLab.LuaScanner
import PointerLab.LuaScannerExact
import PointerLab.ProjectStoreLines
import PointerLab.AddressList
import PointerLab.AddressListService
import PointerLab.AccessWatch
import PointerLab.RuntimeServices
import PointerLab.RuntimeServicesCalls
import PointerLab.ProjectStoreText
import PointerLab.ProjectStoreRoundTrip
import PointerLab.ValueRoundTrip
import PointerLab.ProjectStoreDamage
import PointerLab.DataLines
import PointerLab.SymbolTable
import PointerLab.AutoAssembler
import PointerLab.AutoAssemblerLayout
import PointerLab.AutoAssemblerPlacement
import PointerLab.AutoAssemblerGenuine
import PointerLab.AutoAssemblerRun
import PointerLab.InstructionBoundaries
import PointerLab.AutoAssemblerScripts
import PointerLab.AutoAssemblerIdle
import PointerLab.Writes
import PointerLab.AutoAssemblerEffects
import PointerLab.AutoAssemblerAllocations
import PointerLab.AutoAssemblerStretches
import PointerLab.AutoAssemblerRollback
import PointerLab.AutoAssemblerFootprint
import PointerLab.AutoAssemblerRoundTrip
import PointerLab.AutoAssemblerHistory
import PointerLab.Routines
import PointerLab.AutoAssemblerRoutines
import PointerLab.AutoAssemblerHoldings
import PointerLab.AutoAssemblerCalls
import PointerLab.AutoAssemblerCallsInvariant
import PointerLab.SymbolTableNames
import PointerLab.SymbolTableDescribe
import PointerLab.AutoAssemblerWithdrawals
import PointerLab.AutoAssemblerPasses
import PointerLab.Dissector
import PointerLab.UiProject
import PointerLab.UiProjectLoads
import PointerLab.UiProjectRoundTrip
import PointerLab.SpeedHook
import PointerLab.SpeedHookMonotone
import PointerLab.SpeedHookAdvance
import PointerLab.SpeedHookWorker
import PointerLab.ByteText
import PointerLab.GrowingReads
import PointerLab.McpHttp
import PointerLab.McpHttpReads
import PointerLab.McpProtocol
import PointerLab.McpProtocolText
import PointerLab.McpProtocolReplies
import PointerLab.UiAutomation
import PointerLab.UiAutomationHandOff
import PointerLab.DissectorFields
import PointerLab.DissectorLayout
import PointerLab.DissectorRead
import PointerLab.TrainerExport
import PointerLab.TrainerExportResolve
import PointerLab.Tally
import PointerLab.Disassembler
import PointerLab.PrecedingInstruction
import PointerLab.Alignment
import PointerLab.AllocateNear
import PointerLab.AllocateNearSearch
import PointerLab.AllocateNearReach
import PointerLab.ExportResolver
import PointerLab.ExportResolverChain
import PointerLab.DebugPumpHits
import PointerLab.SpeedHookWrap
import PointerLab.SpeedHookImports
import PointerLab.SpeedHookImportsCount
import PointerLab.DissectorGuess
import PointerLab.McpTools
import PointerLab.McpToolsStructures
import PointerLab.Transducers
import PointerLab.CppTokens
import PointerLab.TrainerExportData
import PointerLab.TrainerExportTokens
import PointerLab.TrainerExportProgram
import PointerLab.Journals
import PointerLab.WriteMemory
import PointerLab.Listings
import PointerLab.SymbolTableKeys
import PointerLab.ExportReads
import PointerLab.ExportCalls
import PointerLab.ExportCallsInvariant
import PointerLab.AtomicFile
import PointerLab.KeyedFields
import PointerLab.SettingsFile
import PointerLab.BreakpointEvents
import PointerLab.McpServer
import PointerLab.McpHttpReplies
import PointerLab.Revisions
import PointerLab.UiCaches
import PointerLab.UiHotkeys
import PointerLab.UiSettings
import PointerLab.Ranks
import PointerLab.SpeedHookSettles
import PointerLab.TrainerExportRuns
import PointerLab.Injector
import PointerLab.Leases
import PointerLab.InjectorCalls
