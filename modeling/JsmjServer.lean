import JsmjServer.Lib.WildCover
import JsmjServer.Lib.Backtrack
import JsmjServer.Lib.Segments
import JsmjServer.Lib.Runs
import JsmjServer.Mahjong.Const
import JsmjServer.Mahjong.MJMath
import JsmjServer.Mahjong.PlayerGrabMgr
import JsmjServer.Websocket.Netpack
import JsmjServer.Texas.GameLogic
import JsmjServer.Texas.Ledger
import JsmjServer.Texas.Requests
import JsmjServer.Lib.Layers
import JsmjServer.Texas.Settlement
import JsmjServer.Texas.SidePots
import JsmjServer.Texas.Pots
import JsmjServer.Mahjong.MJPlayer
import JsmjServer.Mahjong.Table
import JsmjServer.Hongzhong.GamePlaying
import JsmjServer.Gate.Base64
import JsmjServer.Gate.Username
import JsmjServer.Gate.Gateway
import JsmjServer.Gate.Sessions
import JsmjServer.Gate.Safety
import JsmjServer.Gate.Handshakes
import JsmjServer.Hongzhong.Conservation
import JsmjServer.Hongzhong.Messages
import JsmjServer.Hongzhong.Settlement
import JsmjServer.Hongzhong.Winners
import JsmjServer.Nanjing.GamePlaying
import JsmjServer.Nanjing.Winners
import JsmjServer.Winners
import JsmjServer.Lib.Circle
import JsmjServer.Texas.Betting
import JsmjServer.Texas.Offers
import JsmjServer.Nanjing.Conservation
import JsmjServer.Nanjing.Passing
import JsmjServer.Tongxiang.GamePlaying
import JsmjServer.Tongxiang.Phases
import JsmjServer.Tongxiang.Moves
import JsmjServer.Tongxiang.Winners
import JsmjServer.Tongxiang.PiaoHua
import JsmjServer.Tongxiang.NoSwap
import JsmjServer.Tongxiang.Draws
import JsmjServer.Tongxiang.GameEnd
import JsmjServer.Tongxiang.Ledger
import JsmjServer.Tongxiang.PlayedOut
import JsmjServer.Ddz3.CardAlgorithm
import JsmjServer.Ddz3.Grammar
import JsmjServer.Ddz3.Room
import JsmjServer.Ddz3.History
import JsmjServer.Ddz3.Cards
import JsmjServer.Ddz3.Auction
import JsmjServer.Ddz3.Grab
import JsmjServer.Ddz3.Tricks
import JsmjServer.Ddz3.Winner
import JsmjServer.Maanshan.GameEnd
import JsmjServer.Maanshan.GamePlaying
import JsmjServer.Maanshan.LiveOffer
import JsmjServer.Lib.Tables
import JsmjServer.Lobby.EnterRoom
import JsmjServer.Lobby.Seats
import JsmjServer.Erren.Conservation
import JsmjServer.Common.TimeManager
import JsmjServer.Common.Timers
import JsmjServer.Hongzhong.Money
import JsmjServer.Common.VoteManager
import JsmjServer.Common.VoteSafety
import JsmjServer.Lobby.Leavers
import JsmjServer.Hongzhong.Draws
import JsmjServer.Draws
import JsmjServer.Websocket.Framing
import JsmjServer.Websocket.Ordering
import JsmjServer.Websocket.Delivery
import JsmjServer.Websocket.Fragments
import JsmjServer.Websocket.Robust
import JsmjServer.Websocket.Handshake
import JsmjServer.Websocket.PackSize
import JsmjServer.Websocket.HeaderBuffer
import JsmjServer.Websocket.Pack
import JsmjServer.Websocket.SendFrame
import JsmjServer.Lobby.GameStart
import JsmjServer.Nanjing.Accounts
import JsmjServer.Nanjing.Room
import JsmjServer.Nanjing.Ledger
import JsmjServer.Lib.Picks
import JsmjServer.Texas.CardAlgorithm
import JsmjServer.Texas.PokerHands
import JsmjServer.Texas.ValueGroups
import JsmjServer.Texas.BestGroup
import JsmjServer.Texas.Ranking
import JsmjServer.Ddz3.Stakes
import JsmjServer.Nanjing.Settlement
import JsmjServer.Nanjing.Discards
import JsmjServer.Ddz3.Beating
import JsmjServer.Common.Countdown
import JsmjServer.Sng.RoundMgr
import JsmjServer.Sng.Scores
import JsmjServer.Sng.Rounds
import JsmjServer.Nanjing.BaoPai
import JsmjServer.Nanjing.BiXiaHu
import JsmjServer.Lib.Sizes
import JsmjServer.Mahjong.RejectedGrab
import JsmjServer.Mahjong.CancelHistory
import JsmjServer.Mahjong.MJWall
import JsmjServer.Mahjong.WallCount
import JsmjServer.Mahjong.PlayerRecord
import JsmjServer.Mahjong.CountMap
import JsmjServer.Mahjong.ChiOffers
import JsmjServer.Hongzhong.QiDuiHints
import JsmjServer.Hongzhong.KeepNormal
import JsmjServer.Hongzhong.GameEnd
import JsmjServer.Hongzhong.ZhaMa
import JsmjServer.Mahjong.TingHints
import JsmjServer.Mahjong.JiangTou
import JsmjServer.Mahjong.CanHuCards
import JsmjServer.Mahjong.Division
import JsmjServer.Maanshan.CountHuType
import JsmjServer.Nanjing.HuTypes
import JsmjServer.Wuhu.MJWarning
import JsmjServer.Erren.CountHuType
import JsmjServer.Erren.YaoTypes
import JsmjServer.Erren.RunTypes
import JsmjServer.Mahjong.CalcMJTou
import JsmjServer.Lib.RingBuffer
import JsmjServer.Lib.Filing
import JsmjServer.Skynet.Timer
import JsmjServer.Skynet.Server
import JsmjServer.Skynet.Dispatch
import JsmjServer.Lib.HashChains
import JsmjServer.Websocket.Tables
import JsmjServer.Lib.Connections
import JsmjServer.Websocket.Connections
import JsmjServer.Lib.LittleEndian
import JsmjServer.Skynet.Seri
import JsmjServer.Skynet.RoundTrip
