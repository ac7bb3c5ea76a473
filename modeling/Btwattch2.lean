import Btwattch2.Lib.Await
import Btwattch2.Lib.Log
import Btwattch2.Lib.Scanner
import Btwattch2.Lib.Sweep
import Btwattch2.Lib.Transition
import Btwattch2.Chrono
import Btwattch2.Payload
import Btwattch2.Assembler
import Btwattch2.AssemblerTheorems
import Btwattch2.PidFile
import Btwattch2.PidFileTheorems
import Btwattch2.ClientsTheorems
import Btwattch2.ActorInvariants
import Btwattch2.ReceivedTheorems
import Btwattch2.StreamTheorems
import Btwattch2.LinkTheorems
import Btwattch2.CommandTheorems
import Btwattch2.SubscriptionTheorems
import Btwattch2.Cli
import Btwattch2.Client
import Btwattch2.Main
import Btwattch2.MainTheorems
import Btwattch2.Lib.Memo
import Btwattch2.Scan
import Btwattch2.ScanTheorems
import Btwattch2.ReconnectTheorems
import Btwattch2.ShutdownTheorems
import Btwattch2.Text
import Btwattch2.Decimal
import Btwattch2.Config
import Btwattch2.ConfigTheorems
import Btwattch2.Metrics
import Btwattch2.MetricsTheorems
import Btwattch2.ChronoTheorems
import Btwattch2.ClockTheorems
import Btwattch2.Direct
import Btwattch2.DirectTheorems
import Btwattch2.Lib.Tape
import Btwattch2.ActorConduct
import Btwattch2.PollTheorems
import Btwattch2.Server
import Btwattch2.ExchangeTheorems
import Btwattch2.ServerTheorems
import Btwattch2.RenderTheorems
import Btwattch2.RelayTheorems
import Btwattch2.SharedStats
import Btwattch2.SharedStatsTheorems
import Btwattch2.SampleTheorems
import Btwattch2.Lib.Register
import Btwattch2.ChecksumTheorems
import Btwattch2.LocalTime
import Btwattch2.LocalTimeTheorems
import Btwattch2.OneShot
import Btwattch2.OneShotTheorems
import Btwattch2.DeliveryTheorems
import Btwattch2.Paths
import Btwattch2.PathsTheorems
import Btwattch2.Lib.Table
import Btwattch2.TextTheorems
import Btwattch2.QuoteTheorems
import Btwattch2.Printer
import Btwattch2.PrinterTheorems
import Btwattch2.Lib.Nearest
import Btwattch2.Lib.Digits
import Btwattch2.Lib.Json
import Btwattch2.Lib.JsonTheorems
import Btwattch2.Lib.Lines
import Btwattch2.FloatTheorems
import Btwattch2.FloatCodec
import Btwattch2.Spelling
import Btwattch2.SpellingTheorems
import Btwattch2.Wire
import Btwattch2.WireTheorems
import Btwattch2.Lib.Drift
import Btwattch2.Renderer
import Btwattch2.RendererTheorems
import Btwattch2.StreamedTheorems
import Btwattch2.ReadBackTheorems
import Btwattch2.CleanupTheorems
import Btwattch2.Endpoint
import Btwattch2.EndpointTheorems
import Btwattch2.Lib.Calls
import Btwattch2.Bluetooth
import Btwattch2.BluetoothTheorems
import Btwattch2.SessionTheorems
import Btwattch2.DiscoveryTheorems
import Btwattch2.FaultTheorems
import Btwattch2.Permissions
import Btwattch2.PermissionsTheorems
import Btwattch2.Lib.Progress
import Btwattch2.Lifecycle
import Btwattch2.LifecycleTheorems
import Btwattch2.Report
import Btwattch2.ReportTheorems
import Btwattch2.SpelledTheorems
