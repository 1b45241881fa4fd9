import KdeWorkspace.AccessControl
import KdeWorkspace.AccessWords
import KdeWorkspace.ActiveFullScreen
import KdeWorkspace.ArgumentWords
import KdeWorkspace.BootConsistency
import KdeWorkspace.BootListings
import KdeWorkspace.Cascading
import KdeWorkspace.CommandExecution
import KdeWorkspace.ConditionGroups
import KdeWorkspace.ConsoleLogin
import KdeWorkspace.ContainerCursors
import KdeWorkspace.ControlSocket
import KdeWorkspace.DesktopChain
import KdeWorkspace.DesktopLayouts
import KdeWorkspace.DesktopNavigation
import KdeWorkspace.DisplayProcesses
import KdeWorkspace.FocusChains
import KdeWorkspace.FullScreenHacks
import KdeWorkspace.GestureComparison
import KdeWorkspace.GrubMenus
import KdeWorkspace.HistoryCycles
import KdeWorkspace.HotkeyRoundTrip
import KdeWorkspace.IndirectChoices
import KdeWorkspace.IniStore
import KdeWorkspace.InteractionGrants
import KdeWorkspace.ItemPositions
import KdeWorkspace.KeepAlives
import KdeWorkspace.LauncherOrder
import KdeWorkspace.LayoutMatching
import KdeWorkspace.LayoutMemories
import KdeWorkspace.Macros
import KdeWorkspace.MainLoop
import KdeWorkspace.MonitorCommands
import KdeWorkspace.MoveResize
import KdeWorkspace.OutputScreens
import KdeWorkspace.Packing
import KdeWorkspace.PipeRoundTrip
import KdeWorkspace.PolicyAgent
import KdeWorkspace.PowerProfiles
import KdeWorkspace.ProcessOrders
import KdeWorkspace.ProcessTotals
import KdeWorkspace.ResizeSnapping
import KdeWorkspace.Restacking
import KdeWorkspace.SameApplication
import KdeWorkspace.ScreenBuilding
import KdeWorkspace.ScreenCorners
import KdeWorkspace.ScreenPartitions
import KdeWorkspace.SensorQueues
import KdeWorkspace.SessionDiscards
import KdeWorkspace.SessionRequests
import KdeWorkspace.SessionRestore
import KdeWorkspace.SharedStrings
import KdeWorkspace.SmartPlacement
import KdeWorkspace.SortingStrategies
import KdeWorkspace.StrutAreas
import KdeWorkspace.TabBoxClients
import KdeWorkspace.TabBoxModels
import KdeWorkspace.TabGroups
import KdeWorkspace.TaskFilters
import KdeWorkspace.Terminals
import KdeWorkspace.TransiencyRuns
import KdeWorkspace.WindowTriggers
import KdeWorkspace.WorkspacePosition
import KdeWorkspace.XdmcpAuthorization
import KdeWorkspace.XdmcpSessions
