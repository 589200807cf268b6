import UnisetPanel.Machine
import UnisetPanel.ControlManager.Basic
import UnisetPanel.ControlManager.Machine
import UnisetPanel.ControlManager.GraceTimer
import UnisetPanel.ControlManager.Session
import UnisetPanel.SSEHub
import UnisetPanel.Changes
import UnisetPanel.Poller.Basic
import UnisetPanel.Poller.Emit
import UnisetPanel.Poller.Serial
import UnisetPanel.Poller.Concurrent
import UnisetPanel.Poller.Resubscribe
import UnisetPanel.Poller.LostUpdate
import UnisetPanel.Poller.Clients
import UnisetPanel.Recording.Basic
import UnisetPanel.UWSGate.Poller
import UnisetPanel.Recording.Panel
import UnisetPanel.Recording.InitialValues
import UnisetPanel.Recording.Duplicates
import UnisetPanel.Calls
import UnisetPanel.Recording.Manager
import UnisetPanel.Replica
import UnisetPanel.UWSGate.Subscriptions
import UnisetPanel.UWSGate.Client
import UnisetPanel.UWSGate.Coherence
import UnisetPanel.UWSGate.Reconnect
import UnisetPanel.UWSGate.Delivery
import UnisetPanel.RWMutex
import UnisetPanel.UWSGate.Writers
import UnisetPanel.UWSGate.LifeCycle
import UnisetPanel.DecimalText
import UnisetPanel.RFC3339
import UnisetPanel.Recording.Table
import UnisetPanel.Recording.History
import UnisetPanel.Recording.CircularBuffer
import UnisetPanel.Browser.Tabs
import UnisetPanel.Storage
import UnisetPanel.Browser.ExternalSensors
import UnisetPanel.Log
import UnisetPanel.Server.Instance
import UnisetPanel.Server.StatusCallback
import UnisetPanel.Server.ObjectsCallback
import UnisetPanel.Storage.Rows
import UnisetPanel.Storage.Isolation
import UnisetPanel.Storage.Agreement
import UnisetPanel.Lines
import UnisetPanel.LogServer.ReadLogs
import UnisetPanel.Binary
import UnisetPanel.LogServer.Message
import UnisetPanel.LogServer.Manager
import UnisetPanel.LogServer.Servers
import UnisetPanel.LogServer.SharedStreams
import UnisetPanel.Journal.Client
import UnisetPanel.Journal.Poller
import UnisetPanel.Browser.Journal
import UnisetPanel.Mailbox
import UnisetPanel.SSE.Broadcast
import UnisetPanel.SSE.Close
import UnisetPanel.Browser.ListFilters
import UnisetPanel.Browser.LogViewer
import UnisetPanel.Browser.DashboardNavigation
import UnisetPanel.Browser.DashboardsKept
import UnisetPanel.Browser.TabPanels
import UnisetPanel.Browser.MainSSE
import UnisetPanel.Browser.Polling
import UnisetPanel.Browser.PollingData
import UnisetPanel.Browser.ControlStatus
import UnisetPanel.ControlManager.TakeControl
import UnisetPanel.OPCUA.ObjectTypes
import UnisetPanel.Server.PollInterval
import UnisetPanel.GoSlice
import UnisetPanel.LogServer.Batches
import UnisetPanel.OPCUA.TypesMutex
import UnisetPanel.UWSGate.ErrorStatus
import UnisetPanel.Recording.KeepsNewest
import UnisetPanel.Browser.LiveFilter
import UnisetPanel.Browser.InfiniteScroll
import UnisetPanel.Mixing
import UnisetPanel.SensorConfig.MurmurHash2
import UnisetPanel.Poller.Batches
import UnisetPanel.Browser.Generator
import UnisetPanel.OPCUA.ValueHash
import UnisetPanel.Browser.LogReconnect
import UnisetPanel.Grid
import UnisetPanel.Browser.WidgetPlacement
import UnisetPanel.RowWindow
import UnisetPanel.Browser.VirtualScroll
import UnisetPanel.ByteText
import UnisetPanel.QueryString
import UnisetPanel.UniSet.Client
import UnisetPanel.API.Handlers
import UnisetPanel.API.WriteAccess
import UnisetPanel.Csv
import UnisetPanel.Recording.Export
import UnisetPanel.JsonStrings
import UnisetPanel.EventStream
import UnisetPanel.LogServer.Stream
import UnisetPanel.Browser.SensorRows
import UnisetPanel.Browser.SensorTable
import UnisetPanel.Poller.Requests
import UnisetPanel.LogServer.Commands
import UnisetPanel.Browser.LogLevels
import UnisetPanel.Poller.Objects
import UnisetPanel.Browser.ObjectCharts
import UnisetPanel.Server.LifeCycle
import UnisetPanel.SqlCondition
import UnisetPanel.Journal.Bind
import UnisetPanel.Journal.DateTimes
import UnisetPanel.Journal.QueryText
