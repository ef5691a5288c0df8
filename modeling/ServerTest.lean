import ServerTest.Database.Lease
import ServerTest.Database.SQLTransaction
import ServerTest.Database.CellIndependence
import ServerTest.Database.Operations
import ServerTest.Database.StatementUse
import ServerTest.Database.SerialUse
import ServerTest.Database.SQLThread
import ServerTest.Database.Shutdown
import ServerTest.Database.SpawnConnections
import ServerTest.Database.PreparedStatements
import ServerTest.Database.Ownership
import ServerTest.Network.SocketOutput
import ServerTest.Network.DelayedClose
import ServerTest.Network.Draining
import ServerTest.Network.ByteQueue
import ServerTest.Network.SocketInput
import ServerTest.Network.Connection
import ServerTest.Core.Crc32
import ServerTest.Core.BurstErrors
import ServerTest.Server.LoginService
import ServerTest.Configuration.Store
import ServerTest.Chat.ReadLoop
import ServerTest.Chat.ChatRoom
import ServerTest.Chat.Quiescence
import ServerTest.Configuration.Handled
import ServerTest.Configuration.Isolation
import ServerTest.Configuration.Getters
import ServerTest.Configuration.RoundTrip
import ServerTest.Configuration.Grammar
import ServerTest.Configuration.ParseFile
import ServerTest.Database.LastSetter
import ServerTest.Database.SetParam
import ServerTest.Database.StatementReset
import ServerTest.Database.Reporting
import ServerTest.Core.StringUtils
import ServerTest.Core.SHA256
import ServerTest.Lib.Unicode
import ServerTest.Core.Utf8Cpp
import ServerTest.Core.WStr
import ServerTest.Lib.ByteDigits
import ServerTest.Core.BigNumber
import ServerTest.Core.HashedNumbers
import ServerTest.Server.Realm
import ServerTest.Server.Startup
import ServerTest.Database.CellIndex
