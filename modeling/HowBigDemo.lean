import HowBigDemo.LoadImage.Scrolling
import HowBigDemo.LoadImage.Reentrancy
import HowBigDemo.Bridge.QueryRoundTrip
import HowBigDemo.Bridge.ShareScript
import HowBigDemo.JavaScriptCore.Factorial
import HowBigDemo.Mediator.GHHMediator
import HowBigDemo.Network.Requests
import HowBigDemo.Network.NullRemoval
import HowBigDemo.GPUDemo.Alignment
import HowBigDemo.GPUDemo.LazyRestore
import HowBigDemo.GPUDemo.ManagerDisk
import HowBigDemo.GPUDemo.OnlyVideos
import HowBigDemo.GPUDemo.EditorMerge
import HowBigDemo.GPUDemo.OutputNames
import HowBigDemo.Network.UploadedForm
import HowBigDemo.Network.URLSessionManager
import HowBigDemo.WCDB.HandlePool
import HowBigDemo.WCDB.PoolRegistry
import HowBigDemo.WCDB.TimedQueue
import HowBigDemo.WCDB.Configs
import HowBigDemo.WCDB.DatabaseTransactions
